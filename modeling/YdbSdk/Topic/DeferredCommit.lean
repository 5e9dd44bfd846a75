import YdbSdk.Control.Code
import YdbSdk.Data.Assoc
import YdbSdk.Data.Intervals

namespace YdbSdk.Topic.DeferredCommit

open YdbSdk.Control YdbSdk.Data Code

/-! # Deferred commits

The offsets to be committed together, kept for each partition stream.  The plain and the
federated client have the same code.
-/

/-- Streams are compared as pointers. -/
structure PartitionStream where
  pointer : Nat
  partitionSessionId : Nat
deriving DecidableEq

structure OffsetRange where
  startOffset : Nat
  endOffset : Nat
  nonempty : startOffset < endOffset

structure Message where
  offset : Nat
  logicalMessageCount : Nat
  positive : 0 < logicalMessageCount

def getMessageOffsetRange (message : Message) : OffsetRange :=
  ⟨message.offset, message.offset + message.logicalMessageCount, by
    have := message.positive
    omega⟩

def OffsetRange.join (first second : OffsetRange) (touching : second.startOffset = first.endOffset) :
    OffsetRange :=
  ⟨first.startOffset, second.endOffset, by
    have := first.nonempty
    have := second.nonempty
    omega⟩

structure DataReceivedEvent where
  partitionSession : PartitionStream
  first : Message
  others : List Message

/-- What `TDisjointIntervalTree` holds. -/
abbrev OffsetSet := { set : Intervals // set.Separate }

def OffsetSet.empty : OffsetSet := ⟨[], ⟨by simp, .nil⟩⟩

/-- The set with a range added, unless it has some of its offsets. -/
def OffsetSet.insertInterval (set : OffsetSet) (range : OffsetRange) : Option OffsetSet :=
  if apart : set.1.intersects range.startOffset range.endOffset = false then
    some ⟨set.1.insertInterval range.startOffset range.endOffset,
      (Intervals.insertInterval_spec set.2 range.nonempty apart).1⟩
  else none

structure Impl where
  offsets : Assoc PartitionStream OffsetSet := []
  distinct : offsets.Distinct := by exact .nil

namespace Impl

def offsetSet (impl : Impl) (stream : PartitionStream) : OffsetSet :=
  (impl.offsets.find stream).getD .empty

def setOffsets (impl : Impl) (stream : PartitionStream) (set : OffsetSet) : Impl :=
  ⟨impl.offsets.insert stream set, impl.distinct.insert stream set⟩

def created (impl : Impl) (stream : PartitionStream) : Impl :=
  impl.setOffsets stream (impl.offsetSet stream)

end Impl

abbrev Deferred := Code String Empty Impl

def addInterval (stream : PartitionStream) (range : OffsetRange) : Deferred Unit := do
  match (← .read (·.offsetSet stream)).insertInterval range with
  | some wider => .update (·.setOffsets stream wider)
  | none => .raise ("Commit set already has some offsets from half-interval [" ++
      toString range.startOffset ++ "; " ++ toString range.endOffset ++
      ") for partition stream with id " ++ toString stream.partitionSessionId)

/-- The loop over the messages behind the first; `run` joins the neighbours so far. -/
def addRuns (stream : PartitionStream) (run : OffsetRange) : List Message → Deferred Unit
  | [] => addInterval stream run
  | message :: rest =>
    if touching : (getMessageOffsetRange message).startOffset = run.endOffset then
      addRuns stream (run.join (getMessageOffsetRange message) touching) rest
    else do
      addInterval stream run
      addRuns stream (getMessageOffsetRange message) rest

def add (event : DataReceivedEvent) : Deferred Unit := do
  .update (·.created event.partitionSession)
  addRuns event.partitionSession (getMessageOffsetRange event.first) event.others

def commit : Deferred (List (PartitionStream × Nat × Nat)) := do
  let offsets ← .read Impl.offsets
  .update fun _ => {}
  return offsets.flatMap fun entry => entry.2.1.map (entry.1, ·)

def Impl.Sends (impl : Impl) (stream : PartitionStream) (offset : Nat) : Prop :=
  commit.wp ⟨fun sent _ => ∃ range ∈ sent,
    range.1 = stream ∧ range.2.1 ≤ offset ∧ offset < range.2.2, fun _ _ => False, nofun⟩ impl

section Sending

variable {impl : Impl} {stream other : PartitionStream} {set : OffsetSet} {run : OffsetRange}
  {offset : Nat}

theorem sends_iff : impl.Sends stream offset ↔ (impl.offsetSet stream).1.Covered offset := by
  simp only [Impl.Sends, commit, wp_rules, Impl.offsetSet, List.mem_flatMap, List.mem_map]
  constructor
  · rintro ⟨_, ⟨⟨_, set⟩, entry, interval, member, rfl⟩, rfl, within⟩
    rw [impl.distinct.find_eq_some.mpr entry]
    exact ⟨interval, member, within⟩
  · rintro ⟨interval, member, within⟩
    cases found : impl.offsets.find stream with
    | none =>
      rw [found] at member
      contradiction
    | some set =>
      rw [found] at member
      exact ⟨(stream, interval), ⟨(stream, set), Assoc.mem_of_find found, interval, member, rfl⟩,
        rfl, within⟩

theorem sends_setOffsets : (impl.setOffsets stream set).Sends other offset ↔
    if other = stream then set.1.Covered offset else impl.Sends other offset := by
  simp only [sends_iff, Impl.setOffsets, Impl.offsetSet, Assoc.find_insert]
  split <;> rfl

theorem sends_created : (impl.created stream).Sends other offset ↔ impl.Sends other offset := by
  rw [Impl.created, sends_setOffsets, ← sends_iff]
  split
  case isTrue same => rw [same]
  case isFalse => rfl

def growth : Code.Motion Impl where
  moves before after := ∀ stream offset, before.Sends stream offset → after.Sends stream offset
  refl _ _ _ := id
  trans first second := fun stream offset sends => second stream offset (first stream offset sends)

def Impl.overlaps (impl : Impl) (stream : PartitionStream) (range : OffsetRange) : Bool :=
  (impl.offsetSet stream).1.intersects range.startOffset range.endOffset

theorem overlaps_created : (impl.created stream).overlaps stream run = impl.overlaps stream run := by
  simp [Impl.overlaps, Impl.created, Impl.setOffsets, Impl.offsetSet]

/-- A range is refused at once, or all of it is added. -/
theorem addInterval_wp (impl : Impl) (stream : PartitionStream) (range : OffsetRange) :
    (addInterval stream range).wp
      ⟨fun _ after => impl.overlaps stream range = false ∧ growth.moves impl after ∧
          ¬ impl.Sends stream range.startOffset ∧ after.Sends stream range.startOffset,
        fun _ after => impl.overlaps stream range ∧ after = impl, fun _ => True⟩ impl := by
  simp only [addInterval, wp_rules, OffsetSet.insertInterval]
  split
  case h_2 refused =>
    simp only [wp_rules]
    simpa [Impl.overlaps] using refused
  case h_1 wider added =>
    split at added
    case isFalse => contradiction
    case isTrue apart =>
      cases added
      have covered := (Intervals.insertInterval_spec (impl.offsetSet stream).2 range.nonempty apart).2
      have inside : range.startOffset ≤ range.startOffset ∧ range.startOffset < range.endOffset :=
        ⟨Nat.le_refl _, range.nonempty⟩
      refine ⟨apart, fun other offset sends => ?_, ?_, ?_⟩
      · rw [sends_setOffsets]
        split
        case isTrue same =>
          cases same
          exact (covered offset).mpr (.inl (sends_iff.mp sends))
        case isFalse => exact sends
      · rw [sends_iff]
        exact (impl.offsetSet stream).2.not_covered apart inside
      · rw [sends_setOffsets, if_pos rfl]
        exact (covered _).mpr (.inr inside)

theorem addRuns_growth (stream : PartitionStream) (run : OffsetRange) (messages : List Message) :
    Code.Follows growth (addRuns stream run messages) := by
  have single (range : OffsetRange) : Code.Follows growth (addInterval stream range) := by
    intro impl
    refine wp_mono (addInterval_wp impl stream range) (fun _ _ added => added.2.1) ?_
    rintro _ _ ⟨-, rfl⟩
    exact growth.refl _
  induction messages generalizing run with
  | nil => exact single run
  | cons message rest ih =>
    rw [addRuns]
    split
    case isTrue => exact ih _
    case isFalse => exact (single run).bind fun _ => ih _

def firstRun (run : OffsetRange) : List Message → OffsetRange
  | [] => run
  | message :: rest =>
    if touching : (getMessageOffsetRange message).startOffset = run.endOffset then
      firstRun (run.join (getMessageOffsetRange message) touching) rest
    else run

/-- Where the loop throws, the first run decides whether it has added something. -/
theorem addRuns_wp (impl : Impl) (stream : PartitionStream) (run : OffsetRange)
    (messages : List Message) :
    (addRuns stream run messages).wp
      ⟨fun _ _ => True, fun _ after =>
        (impl.overlaps stream (firstRun run messages) = true → after = impl) ∧
        (impl.overlaps stream (firstRun run messages) = false →
          ∃ offset, ¬ impl.Sends stream offset ∧ after.Sends stream offset), fun _ => True⟩ impl := by
  induction messages generalizing run with
  | nil =>
    refine wp_mono (addInterval_wp impl stream run) (fun _ _ _ => trivial) ?_
    rintro _ after ⟨overlapping, unchanged⟩
    simp [firstRun, overlapping, unchanged]
  | cons message rest ih =>
    rw [addRuns, firstRun]
    split
    case isTrue => exact ih _
    case isFalse =>
      rw [wp_bind]
      refine wp_mono (addInterval_wp impl stream run) ?_ ?_
      · rintro _ after ⟨apart, -, before, sends⟩
        refine wp_mono (addRuns_growth stream _ rest after) (fun _ _ _ => trivial) ?_
        intro _ final grown
        simp only [apart, Bool.false_eq_true, false_implies, true_and, forall_const]
        exact ⟨run.startOffset, before, grown _ _ sends⟩
      · rintro _ after ⟨overlapping, unchanged⟩
        simp [overlapping, unchanged]

/-- A failed addition of an event leaves what a commit sends as it was exactly when it
fails at the first run of neighbouring messages. -/
theorem add_thrown_unchanged_iff (impl after : Impl) (event : DataReceivedEvent) (text : String)
    (failed : add event impl = .thrown text after) :
    (∀ stream offset, after.Sends stream offset ↔ impl.Sends stream offset) ↔
      impl.overlaps event.partitionSession
        (firstRun (getMessageOffsetRange event.first) event.others) := by
  have loop := addRuns_wp (impl.created event.partitionSession) event.partitionSession
    (getMessageOffsetRange event.first) event.others
  have thrown : addRuns event.partitionSession (getMessageOffsetRange event.first) event.others
    (impl.created event.partitionSession) = .thrown text after := failed
  simp only [Code.wp, thrown, overlaps_created] at loop
  constructor
  · intro unchanged
    by_contra apart
    obtain ⟨offset, before, sends⟩ := loop.2 (by simpa using apart)
    exact before (sends_created.mpr ((unchanged _ _).mp sends))
  · intro overlapping stream offset
    rw [loop.1 overlapping]
    exact sends_created

end Sending

def fifthOffset : Impl := .setOffsets {} ⟨1, 7⟩ ⟨[(5, 6)], ⟨by decide, by decide⟩⟩

/-- The failed call leaves the first offset of the event behind. -/
theorem add_thrown_first_offset_sent :
    ∃ text after, add ⟨⟨1, 7⟩, ⟨0, 1, by decide⟩, [⟨5, 1, by decide⟩]⟩ fifthOffset = .thrown text after ∧
      after.Sends ⟨1, 7⟩ 0 ∧ ¬ fifthOffset.Sends ⟨1, 7⟩ 0 := by
  refine ⟨_, _, rfl, ?_, ?_⟩
  · rw [sends_iff]
    exact ⟨(0, 1), by decide, by decide⟩
  · rintro ⟨interval, member, within⟩
    cases List.mem_singleton.mp member
    exact absurd within (by decide)

theorem add_thrown_unchanged_at_first_run :
    ∃ text after, add ⟨⟨1, 7⟩, ⟨4, 2, by decide⟩, [⟨8, 1, by decide⟩]⟩ fifthOffset = .thrown text after ∧
      ∀ stream offset, after.Sends stream offset ↔ fifthOffset.Sends stream offset := by
  refine ⟨_, _, rfl, ?_⟩
  exact (add_thrown_unchanged_iff fifthOffset _
    ⟨⟨1, 7⟩, ⟨4, 2, by decide⟩, [⟨8, 1, by decide⟩]⟩ _ rfl).mpr (by decide)

end YdbSdk.Topic.DeferredCommit
