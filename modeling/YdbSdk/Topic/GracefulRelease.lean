import YdbSdk.Control.Run

namespace YdbSdk.Topic.GracefulRelease

open YdbSdk.Control List

/-! # Graceful release of partition sessions

The handlers keep the stop of a partition session until the offsets received for it
are committed.  An acknowledgement names the first offset that is not committed, and
the handlers take that offset for a committed one.
-/

structure Message where
  offset : Nat
  logicalMessageCount : Nat
deriving DecidableEq

def Message.border (message : Message) : Nat := message.offset + message.logicalMessageCount

def Message.offsets (message : Message) : List Nat :=
  .range' message.offset message.logicalMessageCount

/-- The entries of one key in the two maps; one that was erased is as good as an empty
one.  The fields from `confirms` on are history: how often a stop was confirmed, the
offsets received, the committed offsets named, and whether the session was stopped and
closed. -/
structure Slot where
  uncommittedOffsets : List Nat := []
  unconfirmedDestroy : Bool := false
  confirms : Nat := 0
  received : List Nat := []
  acknowledged : List Nat := []
  stopped : Bool := false
  closed : Bool := false

inductive Assertion where
  | intersectingInterval
  | createdWithOffsets
  | destroyedTwice

abbrev Handler := Code Empty Assertion Slot

/-- The elements outside of `[first, border)`. -/
def outsideOf (first border : Nat) (offsets : List Nat) : List Nat :=
  offsets.filter fun offset => offset < first || border ≤ offset

def onDataReceived (first : Message) (others : List Message) : Handler Unit := do
  let last := others.getLastD first
  let offsets ← .read Slot.uncommittedOffsets
  .require (outsideOf first.offset last.border offsets == offsets) .intersectingInterval
  -- The interval has the holes between the messages.
  .update fun slot => { slot with
    uncommittedOffsets := offsets ++ .range' first.offset (last.border - first.offset)
    received := slot.received ++ (first :: others).flatMap Message.offsets }

def onCommitAcknowledgement (committedOffset : Nat) : Handler Unit := do
  let offsets ← .read Slot.uncommittedOffsets
  let others := outsideOf 0 (committedOffset + 1) offsets
  .update fun slot => { slot with
    uncommittedOffsets := others, acknowledged := slot.acknowledged ++ [committedOffset] }
  let unconfirmed ← .read Slot.unconfirmedDestroy
  .when (others.length != offsets.length && others.isEmpty && unconfirmed) (
    .update fun slot => { slot with
      confirms := slot.confirms + 1, unconfirmedDestroy := false, uncommittedOffsets := [] })

def onCreatePartitionStream : Handler Unit := do
  .require (← .read Slot.uncommittedOffsets).isEmpty .createdWithOffsets

def onDestroyPartitionStream : Handler Unit := do
  .require (!(← .read Slot.unconfirmedDestroy)) .destroyedTwice
  if (← .read Slot.uncommittedOffsets).isEmpty then
    .update fun slot => { slot with stopped := true, confirms := slot.confirms + 1 }
  else .update fun slot => { slot with stopped := true, unconfirmedDestroy := true }

def onPartitionStreamClosed : Handler Unit :=
  .update fun slot => { slot with
    uncommittedOffsets := [], unconfirmedDestroy := false, closed := true }

inductive Event where
  | dataReceived (first : Message) (others : List Message)
  | commitAcknowledgement (committedOffset : Nat)
  | createPartitionStream
  | destroyPartitionStream
  | partitionStreamClosed
deriving DecidableEq

def handle : Event → Handler Unit
  | .dataReceived first others => onDataReceived first others
  | .commitAcknowledgement committedOffset => onCommitAcknowledgement committedOffset
  | .createPartitionStream => onCreatePartitionStream
  | .destroyPartitionStream => onDestroyPartitionStream
  | .partitionStreamClosed => onPartitionStreamClosed

def react [DecidableEq κ] (event : κ × Event) : Code Empty Assertion (κ → Slot) Unit := fun slots =>
  match handle event.2 (slots event.1) with
  | .returned _ slot => .returned () (Function.update slots event.1 slot)
  | .thrown exception _ => nomatch exception
  | .stopped assertion => .stopped assertion

abbrev Slot.Acknowledged (slot : Slot) (offset : Nat) : Prop :=
  ∃ border ∈ slot.acknowledged, offset < border

abbrev Slot.AllAcknowledged (slot : Slot) : Prop :=
  ∀ offset ∈ slot.received, slot.Acknowledged offset

/-- Nothing comes after the end of a partition session.  It is started before its data
comes and stopped once.  Messages come in the order of their offsets, and not below an
offset that was acknowledged.  And an acknowledgement does not name an offset that was
received, unless this one was acknowledged before. -/
abbrev Slot.Permits (slot : Slot) (event : Event) : Prop :=
  slot.closed = false ∧ match event with
  | .dataReceived first others =>
    (∀ message ∈ first :: others, 0 < message.logicalMessageCount ∧
      first.offset ≤ message.offset ∧ message.border ≤ (others.getLastD first).border) ∧
    (∀ offset ∈ slot.received, offset < first.offset) ∧
    ∀ border ∈ slot.acknowledged, border ≤ first.offset
  | .commitAcknowledgement committedOffset =>
    committedOffset ∈ slot.received → slot.Acknowledged committedOffset
  | .createPartitionStream => slot.received = []
  | .destroyPartitionStream => slot.stopped = false
  | .partitionStreamClosed => True

instance (slot : Slot) (event : Event) : Decidable (slot.Permits event) := by
  unfold Slot.Permits
  split <;> infer_instance

abbrev Reaches [DecidableEq κ] : (κ → Slot) → Prop :=
  Reachable react (fun slots event => (slots event.1).Permits event.2) (fun _ => {})

/-- The set holds what is not acknowledged, and perhaps holes between those offsets. -/
structure Slot.Sound (slot : Slot) : Prop where
  kept : slot.closed = false → ∀ offset ∈ slot.received,
    offset ∈ slot.uncommittedOffsets ∨ slot.Acknowledged offset
  bounded : ∀ offset ∈ slot.uncommittedOffsets,
    (∃ last ∈ slot.received, offset ≤ last) ∧ ∀ border ∈ slot.acknowledged, border ≤ offset
  waits : slot.unconfirmedDestroy = true → slot.uncommittedOffsets ≠ []
  once : slot.confirms ≤ 1
  told : slot.closed = false → slot.confirms + slot.unconfirmedDestroy.toNat = slot.stopped.toNat

variable {slot : Slot}

theorem Slot.Sound.empty_of_allAcknowledged (sound : slot.Sound) (all : slot.AllAcknowledged) :
    slot.uncommittedOffsets = [] := by
  refine eq_nil_iff_forall_not_mem.mpr fun offset here => ?_
  obtain ⟨⟨last, received, least⟩, above⟩ := sound.bounded offset here
  obtain ⟨border, acknowledged, beyond⟩ := all last received
  have := above border acknowledged
  omega

abbrev Keeps (slot : Slot) (code : Handler Unit) : Prop :=
  code.wp (.keeping (fun after => after.Sound ∧
    (slot.confirms < after.confirms → after.AllAcknowledged)) (fun _ => False)) slot

theorem onDataReceived_keeps (sound : slot.Sound)
    (permitted : slot.Permits (.dataReceived first others)) :
    Keeps slot (onDataReceived first others) := by
  obtain ⟨running, ordered, fresh, above⟩ := permitted
  simp only [onDataReceived, Code.wp_rules]
  have lastMember : others.getLastD first ∈ first :: others :=
    getLastD_mem_cons
  generalize others.getLastD first = last at ordered lastMember
  have ends := ordered last lastMember
  have lastReceived : last.border - 1 ∈ (first :: others).flatMap Message.offsets := by
    refine mem_flatMap.mpr ⟨last, lastMember, mem_range'_1.mpr ?_⟩
    unfold Message.border
    omega
  refine ⟨fun _ => ⟨⟨fun _ offset received => ?_, fun offset member => ?_, fun waiting => ?_,
    sound.once, sound.told⟩, fun more => absurd more (Nat.lt_irrefl _)⟩, fun meets => ?_⟩
  · rcases mem_append.mp received with earlier | new
    · exact (sound.kept running offset earlier).imp (mem_append_left _) id
    · obtain ⟨message, member, within⟩ := mem_flatMap.mp new
      have bounds := mem_range'_1.mp within
      have order := ordered message member
      unfold Message.border at order
      exact .inl (mem_append_right _ (mem_range'_1.mpr (by unfold Message.border; omega)))
  · rcases mem_append.mp member with earlier | new
    · obtain ⟨⟨received, member, least⟩, above⟩ := sound.bounded offset earlier
      exact ⟨⟨received, mem_append_left _ member, least⟩, above⟩
    · have within := mem_range'_1.mp new
      refine ⟨⟨_, mem_append_right _ lastReceived, by omega⟩, fun border acknowledged => ?_⟩
      exact Nat.le_trans (above border acknowledged) within.1
  · exact append_ne_nil_of_left_ne_nil (sound.waits waiting) _
  · have apart : outsideOf first.offset last.border slot.uncommittedOffsets =
        slot.uncommittedOffsets := by
      refine filter_eq_self.mpr fun offset member => ?_
      obtain ⟨⟨earlier, received, least⟩, _⟩ := sound.bounded offset member
      simp [Nat.lt_of_le_of_lt least (fresh earlier received)]
    rw [apart, beq_self_eq_true] at meets
    contradiction

theorem onCommitAcknowledgement_keeps {committedOffset : Nat} (sound : slot.Sound)
    (permitted : slot.Permits (.commitAcknowledgement committedOffset)) :
    Keeps slot (onCommitAcknowledgement committedOffset) := by
  obtain ⟨running, unnamed⟩ := permitted
  simp only [onCommitAcknowledgement, Code.wp_rules]
  generalize remaining : outsideOf 0 (committedOffset + 1) slot.uncommittedOffsets = others
  have left {offset : Nat} : offset ∈ others ↔
      offset ∈ slot.uncommittedOffsets ∧ committedOffset < offset := by
    simp [← remaining, outsideOf, Nat.succ_le_iff]
  have kept : ∀ offset ∈ slot.received, offset ∈ others ∨
      ∃ border ∈ slot.acknowledged ++ [committedOffset], offset < border := by
    intro offset received
    rcases sound.kept running offset received with here | ⟨border, acknowledged, beyond⟩
    · rcases Nat.lt_trichotomy offset committedOffset with below | rfl | above
      · exact .inr ⟨_, mem_append_right _ (mem_singleton_self _), below⟩
      · -- What is in the set was not acknowledged before.
        obtain ⟨border, acknowledged, beyond⟩ := unnamed received
        have := (sound.bounded _ here).2 border acknowledged
        omega
      · exact .inl (left.mpr ⟨here, above⟩)
    · exact .inr ⟨border, mem_append_left _ acknowledged, beyond⟩
  have bounded : ∀ offset ∈ others, (∃ last ∈ slot.received, offset ≤ last) ∧
      ∀ border ∈ slot.acknowledged ++ [committedOffset], border ≤ offset := by
    intro offset member
    obtain ⟨here, above⟩ := left.mp member
    refine ⟨(sound.bounded offset here).1, forall_mem_append.mpr ⟨(sound.bounded offset here).2,
      forall_mem_singleton.mpr (Nat.le_of_lt above)⟩⟩
  refine ⟨fun confirmed => ?_, fun unconfirmed => ?_⟩
  · simp only [Bool.and_eq_true, List.isEmpty_iff] at confirmed
    obtain ⟨⟨_, rfl⟩, waiting⟩ := confirmed
    have all := fun offset received => (kept offset received).resolve_left not_mem_nil
    have told := sound.told running
    rw [waiting] at told
    refine ⟨⟨fun _ offset received => .inr (all offset received), by simp, by simp, ?_, fun _ => told⟩,
      fun _ => all⟩
    exact Nat.le_trans (Nat.le_of_eq told) (Bool.toNat_le _)
  · refine ⟨⟨fun _ => kept, bounded, fun waiting empty => ?_, sound.once, sound.told⟩,
      fun more => absurd more (Nat.lt_irrefl _)⟩
    -- A stop waits for some offset, so the last one has just been removed.
    obtain rfl : others = [] := empty
    have removed := mt length_eq_zero_iff.mp (sound.waits waiting)
    simp [show slot.unconfirmedDestroy = true from waiting, Ne.symm removed] at unconfirmed

theorem handle_keeps (event : Event) (sound : slot.Sound) (permitted : slot.Permits event) :
    Keeps slot (handle event) := by
  have unconfirmed : ¬ slot.confirms < slot.confirms := Nat.lt_irrefl _
  cases event with
  | dataReceived first others => exact onDataReceived_keeps sound permitted
  | commitAcknowledgement committedOffset => exact onCommitAcknowledgement_keeps sound permitted
  | createPartitionStream =>
    have empty := sound.empty_of_allAcknowledged (by
      rw [Slot.AllAcknowledged, permitted.2]
      simp)
    simp only [handle, onCreatePartitionStream, Code.wp_rules, empty]
    exact ⟨fun _ => ⟨sound, (absurd · unconfirmed)⟩, by simp⟩
  | destroyPartitionStream =>
    obtain ⟨running, first⟩ := permitted
    have told := sound.told running
    rw [first, Bool.toNat_false, Nat.add_eq_zero_iff, Bool.toNat_eq_zero] at told
    simp only [handle, onDestroyPartitionStream, Code.wp_rules, told.2]
    refine ⟨fun _ => ⟨fun empty => ?_, fun some => ?_⟩, by simp⟩
    · have empty := List.isEmpty_iff.mp empty
      refine ⟨⟨sound.kept, sound.bounded, by simp, ?_, fun _ => ?_⟩, fun _ offset received => ?_⟩
      · simp [told.1]
      · simp [told.1]
      · exact (sound.kept running offset received).resolve_left (empty ▸ not_mem_nil)
    · refine ⟨⟨sound.kept, sound.bounded, fun _ => mt List.isEmpty_iff.mpr some, sound.once,
        fun _ => ?_⟩, (absurd · unconfirmed)⟩
      simp [told.1]
  | partitionStreamClosed => exact ⟨⟨by simp, by simp, by simp, sound.once, by simp⟩, (absurd · unconfirmed)⟩

variable [DecidableEq κ] {slots : κ → Slot}

theorem react_keeps (event : κ × Event) (sound : ∀ key, (slots key).Sound)
    (permitted : (slots event.1).Permits event.2) :
    (react event).wp (.keeping (fun after => (∀ key, (after key).Sound) ∧
      ∀ key, (slots key).confirms < (after key).confirms → (after key).AllAcknowledged)
      (fun _ => False)) slots := by
  have keeps := handle_keeps event.2 (sound event.1) permitted
  unfold Keeps at keeps
  unfold react Code.wp at *
  cases ending : handle event.2 (slots event.1) with
  | thrown exception _ => exact nomatch exception
  | stopped assertion =>
    rw [ending] at keeps
    exact keeps.elim
  | returned _ slot =>
    simp only [ending] at keeps ⊢
    refine forall_and.mp fun key => ?_
    by_cases same : key = event.1
    · rw [same, Function.update_self]
      exact keeps
    · rw [Function.update_of_ne same]
      exact ⟨sound key, fun more => absurd more (Nat.lt_irrefl _)⟩

/-- A stop is confirmed at most once, as soon as all received offsets are acknowledged
and not before; and no assertion fails. -/
theorem stop_confirmed_when_acknowledged (reached : Reaches slots) :
    (∀ key, (slots key).confirms ≤ 1) ∧
      (∀ key, (slots key).stopped = true → (slots key).closed = false →
        (slots key).AllAcknowledged → (slots key).confirms = 1) ∧
      ∀ event, (slots event.1).Permits event.2 →
        (∀ assertion, (react event).step slots ≠ .error assertion) ∧
        ∀ after, (react event).step slots = .ok after → ∀ key,
          (slots key).confirms < (after key).confirms → (after key).AllAcknowledged := by
  have kept (before : κ → Slot) (event : κ × Event) (sound : ∀ key, (before key).Sound)
      (permitted : (before event.1).Permits event.2) :
      (react event).wp (.keeping (fun after => ∀ key, (after key).Sound) (fun _ => False)) before :=
    Code.wp_mono (react_keeps event sound permitted) (fun _ _ => And.left) nofun
  have sound := reached.invariant
    (by exact fun _ => ⟨nofun, nofun, nofun, Nat.zero_le _, fun _ => rfl⟩) kept
  refine ⟨fun key => (sound key).once, fun key stopped running all => ?_, fun event permitted => ⟨?_, ?_⟩⟩
  · have told := (sound key).told running
    have waits := mt (sound key).waits (not_not.mpr ((sound key).empty_of_allAcknowledged all))
    rwa [Bool.eq_false_iff.mpr waits, stopped] at told
  · exact fun assertion => Code.wp_step_error (react_keeps event sound permitted)
  · exact fun after taken => (Code.wp_step (react_keeps event sound permitted) taken).2

def stoppedRun (committedOffset : Nat) : List (Nat × Event) :=
  [(0, .createPartitionStream), (0, .dataReceived ⟨0, 2⟩ []), (1, .dataReceived ⟨7, 1⟩ [⟨9, 1⟩]),
    (0, .destroyPartitionStream), (0, .commitAcknowledgement committedOffset)]

theorem stop_confirmed_when_both_acknowledged :
    ∃ slots, Reaches slots ∧ (slots 0).AllAcknowledged ∧ (slots 0).confirms = 1 := by
  obtain ⟨slots, reached, stopped, running, all⟩ : ∃ slots, Reaches slots ∧ (slots 0).stopped = true ∧
      (slots 0).closed = false ∧ (slots 0).AllAcknowledged :=
    exists_reachable (stoppedRun 2) (by decide +kernel)
  exact ⟨slots, reached, all, (stop_confirmed_when_acknowledged reached).2.1 0 stopped running all⟩

/-- The acknowledgement names the second offset, which is not committed. -/
theorem stop_confirmed_too_early :
    ∃ slots, run react (fun _ => {}) (stoppedRun 1) = .ok slots ∧
      (slots 0).confirms = 1 ∧ ¬ (slots 0).AllAcknowledged := by
  decide +kernel

end YdbSdk.Topic.GracefulRelease
