import YdbSdk.Topic.DeferredPublication.AckState

namespace YdbSdk.Topic.DeferredPublication

open YdbSdk.Control YdbSdk.Data List

/-! # The counters of a deferred publication

The two counters and the maps of the sessions agree with the history of writes.
-/

variable {state after : State} {session seqNo : Nat} {writes : List Write}

def Write.isIn (session : Nat) (write : Write) : Bool :=
  decide (write.session = session ∧ write.fate = .inFlight)

def Write.isAcknowledged (write : Write) : Bool := write.fate == .acknowledged

def Write.isKept (write : Write) : Bool := write.fate != .dropped

def inFlight (session : Nat) (writes : List Write) : List Nat :=
  (writes.filter (Write.isIn session)).map Write.seqNo

theorem acknowledgeFirst_split (waiting : seqNo ∈ inFlight session writes) :
    ∃ front back, writes = front ++ ⟨session, seqNo, .inFlight⟩ :: back ∧
      seqNo ∉ inFlight session front ∧
      acknowledgeFirst session seqNo writes = front ++ ⟨session, seqNo, .acknowledged⟩ :: back := by
  induction writes with
  | nil => simp [inFlight] at waiting
  | cons write rest ih =>
    by_cases here : write = ⟨session, seqNo, .inFlight⟩
    · exact ⟨[], rest, by simp [here], by simp [inFlight], by simp [acknowledgeFirst, here]⟩
    · have elsewhere : Write.isIn session write = true → seqNo ≠ write.seqNo := by
        obtain ⟨owner, number, fate⟩ := write
        simp only [Write.isIn, decide_eq_true_eq]
        rintro ⟨rfl, rfl⟩ rfl
        exact here rfl
      obtain ⟨front, back, split, first, settled⟩ := ih (by
        simp only [inFlight, filter_cons] at waiting
        split at waiting
        · rename_i inside
          exact (mem_cons.mp waiting).resolve_left (elsewhere inside)
        · exact waiting)
      refine ⟨write :: front, back, by rw [split, cons_append], ?_, ?_⟩
      · simp only [inFlight, filter_cons]
        split
        · rename_i inside
          exact fun member => (mem_cons.mp member).elim (elsewhere inside) first
        · exact first
      · rw [acknowledgeFirst, if_neg here, settled, cons_append]

theorem countP_dropped (session : Nat) (writes : List Write) :
    (writes.map (.dropped session)).countP Write.isKept + (inFlight session writes).length =
        writes.countP Write.isKept ∧
      (writes.map (.dropped session)).countP Write.isAcknowledged =
        writes.countP Write.isAcknowledged := by
  induction writes with
  | nil => simp [inFlight]
  | cons write rest ih =>
    obtain ⟨owner, number, fate⟩ := write
    simp only [inFlight] at ih ⊢
    simp only [map_cons, countP_cons, filter_cons, Write.isIn, decide_eq_true_eq]
    by_cases here : owner = session ∧ fate = .inFlight
    · simp [Write.dropped, here, Write.isKept, Write.isAcknowledged] at ih ⊢
      omega
    · simp only [Write.dropped, here, if_false]
      omega

theorem inFlight_dropped (session other : Nat) (writes : List Write) :
    inFlight other (writes.map (Write.dropped session)) =
      if other = session then [] else inFlight other writes := by
  induction writes with
  | nil => simp [inFlight]
  | cons write rest ih =>
    simp only [inFlight] at ih ⊢
    rw [map_cons, filter_cons, filter_cons]
    by_cases here : write.session = session ∧ write.fate = .inFlight
    · by_cases same : other = session
      · simpa [Write.dropped, here, Write.isIn, same] using ih
      · simpa [Write.dropped, here, Write.isIn, same, Ne.symm same] using ih
    · by_cases same : other = session
      · simpa [Write.dropped, here, Write.isIn, same] using ih
      · rw [Write.dropped, if_neg here]
        split <;> simp [ih, same]

structure Balanced (state : State) : Prop where
  written : state.writeCount = state.writes.countP Write.isKept
  acknowledged : state.ackCount = state.writes.countP Write.isAcknowledged
  counts : ∀ session, (state.writtenInDeferred session).Counts (inFlight session state.writes)

variable (balanced : Balanced state)
include balanced

theorem Balanced.fits (session : Nat) :
    state.ackCount + (inFlight session state.writes).length ≤ state.writeCount := by
  obtain ⟨kept, same⟩ := countP_dropped session state.writes
  have fewer : (state.writes.map (.dropped session)).countP Write.isAcknowledged ≤
      (state.writes.map (.dropped session)).countP Write.isKept :=
    countP_mono_left fun write _ => by simp +contextual [Write.isAcknowledged, Write.isKept]
  rw [balanced.written, balanced.acknowledged]
  omega

theorem Balanced.settled (equal : state.writeCount = state.ackCount) :
    ∀ write ∈ state.writes, write.fate ≠ .inFlight := by
  intro write member waiting
  have fits := balanced.fits write.session
  have inside : write.seqNo ∈ inFlight write.session state.writes :=
    mem_map_of_mem (mem_filter.mpr ⟨member, by simp [Write.isIn, waiting]⟩)
  have some := length_pos_of_mem inside
  omega

theorem Balanced.update
    (counts : inFlightNow.Counts (inFlight session after.writes))
    (others : ∀ other, other ≠ session → inFlight other after.writes = inFlight other state.writes)
    (maps : after.writtenInDeferred = Function.update state.writtenInDeferred session inFlightNow)
    (other : Nat) : (after.writtenInDeferred other).Counts (inFlight other after.writes) := by
  rw [maps]
  by_cases here : other = session
  · rw [here, Function.update_self]
    exact counts
  · rw [Function.update_of_ne here, others other here]
    exact balanced.counts other

theorem Balanced.write (session seqNo : Nat) (writeCount : after.writeCount = state.writeCount + 1)
    (ackCount : after.ackCount = state.ackCount)
    (maps : after.writtenInDeferred = Function.update state.writtenInDeferred session
      ((state.writtenInDeferred session).insert seqNo
        (((state.writtenInDeferred session).find seqNo).getD 0 + 1)))
    (writes : after.writes = state.writes ++ [⟨session, seqNo, .inFlight⟩]) : Balanced after where
  written := by
    rw [writeCount, writes, balanced.written, countP_append]
    rfl
  acknowledged := by
    rw [ackCount, writes, balanced.acknowledged, countP_append]
    rfl
  counts := by
    refine balanced.update ?_ (fun other differ => ?_) maps
    · simpa [writes, inFlight, Write.isIn] using (balanced.counts session).add seqNo
    · simp [writes, inFlight, Write.isIn, Ne.symm differ]

theorem Balanced.acknowledge {count : Nat}
    (found : (state.writtenInDeferred session).find seqNo = some count)
    (writeCount : after.writeCount = state.writeCount)
    (ackCount : after.ackCount = state.ackCount + 1)
    (maps : after.writtenInDeferred = Function.update state.writtenInDeferred session
      (if count = 1 then (state.writtenInDeferred session).erase seqNo
        else (state.writtenInDeferred session).insert seqNo (count - 1)))
    (writes : after.writes = acknowledgeFirst session seqNo state.writes) : Balanced after := by
  have counts := balanced.counts session
  obtain ⟨front, back, split, first, settled⟩ := acknowledgeFirst_split (counts.mem found)
  rw [settled] at writes
  constructor
  · rw [writeCount, balanced.written, writes, split]
    simp [countP_cons, Write.isKept]
  · rw [ackCount, balanced.acknowledged, writes, split]
    simp only [countP_append, countP_cons, Write.isAcknowledged]
    simp
    omega
  · have removed := counts.remove found
    simp only [inFlight] at removed first
    refine balanced.update ?_ (fun other differ => ?_) maps
    · simpa [writes, split, inFlight, Write.isIn, erase_append_right _ first] using removed
    · simp [writes, split, inFlight, Write.isIn, Ne.symm differ]

theorem Balanced.abort (session : Nat) (writeCount : after.writeCount =
      state.writeCount - (state.writtenInDeferred session).total)
    (ackCount : after.ackCount = state.ackCount)
    (maps : after.writtenInDeferred = Function.update state.writtenInDeferred session [])
    (writes : after.writes = state.writes.map (.dropped session)) : Balanced after := by
  obtain ⟨kept, acknowledged⟩ := countP_dropped session state.writes
  constructor
  · rw [writeCount, (balanced.counts session).total, balanced.written, writes]
    omega
  · rw [ackCount, balanced.acknowledged, writes, acknowledged]
  · refine balanced.update ?_ (fun other differ => ?_) maps
    · rw [writes, inFlight_dropped, if_pos rfl]
      exact ⟨.nil, by simp, by simp, rfl⟩
    · rw [writes, inFlight_dropped, if_neg differ]

end YdbSdk.Topic.DeferredPublication
