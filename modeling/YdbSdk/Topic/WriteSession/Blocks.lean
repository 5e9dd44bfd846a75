import YdbSdk.Topic.WriteSession.Sending

namespace YdbSdk.Topic.WriteSession

open YdbSdk.Control YdbSdk.Data List

/-! # The blocks a batch is turned into

The views of a batch first point at the memory of the user, then into its buffer, which
may move.  A flush points them all at the buffer again, by their lengths only.
-/

variable {batch : MessageBatch} {message : Message} {messages rebased : List Message}
  {state prepared : State} {block : Block}

/-- The buffer holds payloads of its messages in their order, and not yet that of a last
message that was not acquired. -/
structure MessageBatch.Backed (batch : MessageBatch) : Prop where
  copied : batch.data.Sublist (batch.messages.flatMap Message.dataRef)
  unacquired : batch.acquired = false →
    batch.data.Sublist (batch.messages.dropLast.flatMap Message.dataRef)

theorem MessageBatch.Backed.empty : MessageBatch.Backed {} :=
  ⟨.refl [], fun _ => .refl []⟩

theorem MessageBatch.Backed.add (backed : batch.Backed) (now : Instant) (message : Message) :
    (batch.add now message).Backed where
  copied := by
    rw [MessageBatch.add, flatMap_append]
    exact backed.copied.trans (sublist_append_left _ _)
  unacquired := fun _ => by
    rw [MessageBatch.add, dropLast_concat]
    exact backed.copied

theorem MessageBatch.Backed.acquire (backed : batch.Backed) : batch.acquire.Backed := by
  unfold MessageBatch.acquire
  split
  next last unacquired found =>
    obtain ⟨earlier, split⟩ := List.getLast?_eq_some_iff.mp found
    refine ⟨?_, fun impossible => Bool.noConfusion impossible⟩
    have copied := backed.unacquired unacquired
    rw [split, dropLast_concat] at copied
    rw [split, flatMap_append, flatMap_singleton]
    exact copied.append_right _
  next => exact backed

theorem MessageBatch.Backed.emptied (batch : MessageBatch) (rebased : List Message) :
    (batch.emptied rebased).Backed :=
  ⟨nil_sublist _, fun _ => nil_sublist _⟩

theorem rebaseDataRefs_fits
    (found : rebaseDataRefs data offset messages = some rebased) (inside : offset ≤ data.length) :
    offset + (messages.flatMap Message.dataRef).length ≤ data.length := by
  induction messages generalizing offset rebased with
  | nil => simpa using inside
  | cons message rest ih =>
    simp only [rebaseDataRefs] at found
    split at found
    next fits =>
      obtain ⟨others, tail, _⟩ := Option.bind_eq_some_iff.mp found
      have remaining := ih tail fits
      rw [flatMap_cons, length_append]
      omega
    next => contradiction

theorem rebaseDataRefs_views (earlier : Bytes) (found : rebaseDataRefs
      (earlier ++ messages.flatMap Message.dataRef) earlier.length messages = some rebased) :
    rebased.map Message.dataRef = messages.map Message.dataRef := by
  induction messages generalizing earlier rebased with
  | nil => simp_all [rebaseDataRefs]
  | cons message rest ih =>
    simp only [rebaseDataRefs, flatMap_cons] at found
    split at found
    next fits =>
      obtain ⟨others, tail, equal⟩ := Option.bind_eq_some_iff.mp found
      rw [← append_assoc, ← length_append] at tail
      cases equal
      rw [map_cons, ih _ tail]
      simp
    next => contradiction

theorem MessageBatch.Backed.views (backed : batch.Backed) (found : batch.rebased = some rebased) :
    rebased.map Message.dataRef = batch.messages.map Message.dataRef ∧
      batch.acquire.data = batch.messages.flatMap Message.dataRef := by
  have copied := backed.acquire.copied
  rw [MessageBatch.acquire_messages] at copied
  have fits := rebaseDataRefs_fits found (Nat.zero_le _)
  have whole := copied.eq_of_length_le (by omega)
  rw [MessageBatch.rebased, whole] at found
  exact ⟨rebaseDataRefs_views [] found, whole⟩

theorem foldl_add_views (messages : List Message) (block : Block) :
    (messages.foldl .add block).originalDataRefs =
      block.originalDataRefs ++ messages.map Message.dataRef := by
  induction messages generalizing block with
  | nil => exact (append_nil _).symm
  | cons message rest ih =>
    have joined : (block.add message).originalDataRefs =
        block.originalDataRefs ++ [message.dataRef] := by
      unfold Block.add
      cases message.codec <;> rfl
    rw [foldl_cons, ih, joined, append_assoc]
    rfl

/-- What happens to a batch; a flush throws if compressing its block does. -/
inductive BatchStep where
  | add (now : Instant) (message : Message)
  | acquire
  | flush (throws : Bool)

def BatchStep.apply (batch : MessageBatch) : BatchStep → Option MessageBatch
  | .add now message => some (batch.add now message)
  | .acquire => some batch.acquire
  | .flush throws => batch.rebased.map fun rebased => if throws then batch.emptied rebased else {}

def BatchStep.passed (payloads : List Bytes) : BatchStep → List Bytes
  | .add _ message => payloads ++ [message.dataRef]
  | .acquire => payloads
  | .flush throws => if throws then payloads else []

theorem BatchStep.apply_backed {after : MessageBatch} (step : BatchStep) (backed : batch.Backed)
    (stepped : step.apply batch = some after) : after.Backed ∧
      after.messages.map Message.dataRef = step.passed (batch.messages.map Message.dataRef) := by
  cases step with
  | add now message =>
    cases stepped
    exact ⟨backed.add now message, by simp [MessageBatch.add, BatchStep.passed]⟩
  | acquire =>
    cases stepped
    exact ⟨backed.acquire, by rw [MessageBatch.acquire_messages]; rfl⟩
  | flush throws =>
    obtain ⟨rebased, found, rfl⟩ := Option.map_eq_some_iff.mp stepped
    cases throws with
    | false => exact ⟨.empty, rfl⟩
    | true => exact ⟨.emptied batch rebased, by
        rw [BatchStep.passed, ← (backed.views found).1]
        simp [MessageBatch.emptied, Message.movedFrom]⟩

theorem batchSteps_backed {after : MessageBatch} (steps : List BatchStep) (backed : batch.Backed)
    (ran : steps.foldlM BatchStep.apply batch = some after) : after.Backed ∧
      after.messages.map Message.dataRef =
        steps.foldl BatchStep.passed (batch.messages.map Message.dataRef) := by
  induction steps generalizing batch with
  | nil =>
    cases ran
    exact ⟨backed, rfl⟩
  | cons step rest ih =>
    obtain ⟨next, stepped, ran⟩ := Option.bind_eq_some_iff.mp ran
    obtain ⟨backed, payloads⟩ := step.apply_backed backed stepped
    rw [foldl_cons, ← payloads]
    exact ih backed ran

/-- An empty message between two others, and a last one that was not acquired. -/
def mixedSteps : List BatchStep :=
  [.add 1 ⟨1, 1, [97, 98], none, 0, [], .plain⟩, .acquire, .add 2 ⟨2, 2, [], none, 0, [], .plain⟩,
    .acquire, .add 3 ⟨3, 3, [99], none, 0, [], .plain⟩]

def mixedBatch : MessageBatch := (mixedSteps.foldlM BatchStep.apply {}).getD {}

end YdbSdk.Topic.WriteSession
