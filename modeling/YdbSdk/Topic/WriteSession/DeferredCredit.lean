import YdbSdk.Data.Rows
import YdbSdk.Topic.WriteSession.TxSignals

namespace YdbSdk.Topic.WriteSession

open YdbSdk.Control YdbSdk.Data List

/-! # What a session owes to deferred publications

The table of in-flight deferred writes has one row for each SeqNo.  While messages of
different publications that are not acknowledged have different numbers, the table is
the one of the accepted messages, and the counters of a publication count its messages.
-/

variable {message : Accepted} {place : Nat} {written : Assoc Nat DeferredInFlightWrite}

def WriteContext.publication : WriteContext → Option Nat
  | .deferred publication => some publication.ackState
  | _ => none

def Accepted.publication (message : Accepted) : Option Nat :=
  message.record.writeContext.publication

def publishedIn (ackState : Nat) (messages : List Accepted) : Nat :=
  messages.countP (fun message => message.publication == some ackState)

/-- The table and the counters are those of the entries, each a number and a publication.
`shared` are the counters before the session wrote. -/
structure Credited (shared : Assoc Nat AckState) (acked pending : List (Nat × Option Nat))
    (written : Assoc Nat DeferredInFlightWrite) (ackStates : Assoc Nat AckState) : Prop where
  together : ∀ first ∈ pending, ∀ second ∈ pending, first.1 = second.1 → first.2 = second.2
  listed : ∀ id, (written.find id).map (fun write => (write.ackState, write.unackedCount)) =
    rowOf id pending
  distinct : written.Distinct
  unacked : ∀ ackState, unackedOf ackState written = ownedBy ackState pending
  writes : ∀ ackState, ((ackStates.find ackState).getD {}).writeCount =
    ((shared.find ackState).getD {}).writeCount + ownedBy ackState (acked ++ pending)
  acks : ∀ ackState, ((ackStates.find ackState).getD {}).ackCount =
    ((shared.find ackState).getD {}).ackCount + ownedBy ackState acked

section

variable {shared : Assoc Nat AckState} {acked pending : List (Nat × Option Nat)}
  {ackStates : Assoc Nat AckState} {registry after : Registry}

theorem TxOpened.deferred
    (opens : TxOpened txId registry index after) :
    after.writtenInDeferred = registry.writtenInDeferred ∧ after.ackStates = registry.ackStates := by
  cases opens <;> exact ⟨rfl, rfl⟩

theorem AckState.giveBack_writeCount (unackedCount : Nat) (counters : AckState) :
    (counters.giveBack unackedCount).writeCount = counters.writeCount - unackedCount := by
  unfold AckState.giveBack
  split
  · rename_i none
    rw [none, Nat.sub_zero]
  · split <;> rfl

theorem AckState.giveBack_ackCount (unackedCount : Nat) (counters : AckState) :
    (counters.giveBack unackedCount).ackCount = counters.ackCount := by
  unfold AckState.giveBack
  split
  · rfl
  · split <;> rfl

theorem Credited.abort (credited : Credited shared acked pending written ackStates) (gives : ∀ ackState, (given.find ackState).getD {} =
      ((ackStates.find ackState).getD {}).giveBack (unackedOf ackState written)) :
    Credited shared acked (pending.map fun entry => (entry.1, none)) [] given := by
  have unowned : ∀ entry ∈ pending.map (fun entry => (entry.1, (none : Option Nat))),
      entry.2 = none := by
    intro entry member
    obtain ⟨_, _, rfl⟩ := mem_map.mp member
    rfl
  have none (ackState : Nat) :
      ownedBy ackState (pending.map fun entry => (entry.1, (none : Option Nat))) = 0 :=
    countP_eq_zero.mpr fun entry member => by simp [unowned entry member]
  refine ⟨?_, fun id => (rowOf_eq_none_of_unowned fun entry member _ => unowned entry member).symm,
    .nil, fun ackState => (none ackState).symm, fun ackState => ?_, fun ackState => ?_⟩
  · intro first firstIn second secondIn _
    rw [unowned first firstIn, unowned second secondIn]
  · rw [gives, AckState.giveBack_writeCount, credited.writes, credited.unacked, ownedBy_append, ownedBy_append,
      none]
    omega
  · rw [gives, AckState.giveBack_ackCount, credited.acks]

theorem find_countDown (seqNo other : Nat) (write : DeferredInFlightWrite)
    (written : Assoc Nat DeferredInFlightWrite) :
    (countDown seqNo write written).find other =
      if other = seqNo then if write.unackedCount = 1 then none
        else some { write with unackedCount := write.unackedCount - 1 }
      else written.find other := by
  unfold countDown
  by_cases last : write.unackedCount = 1 <;> simp [last]

theorem distinct_countDown (distinct : written.Distinct) (seqNo : Nat)
    (write : DeferredInFlightWrite) : (countDown seqNo write written).Distinct := by
  unfold countDown
  split
  · exact distinct.erase seqNo
  · exact distinct.insert seqNo _

theorem unackedOf_countDown (distinct : written.Distinct) (found : written.find seqNo = some write)
    (positive : 0 < write.unackedCount) (ackState : Nat) :
    unackedOf ackState (countDown seqNo write written) +
      (if write.ackState = ackState then 1 else 0) = unackedOf ackState written := by
  unfold unackedOf countDown
  by_cases last : write.unackedCount = 1
  · have erased := Assoc.weigh_erase distinct
      (fun write => if write.ackState = ackState then write.unackedCount else 0) seqNo
    rw [found] at erased
    simpa [last] using erased
  · have inserted := Assoc.weigh_insert distinct
      (fun write => if write.ackState = ackState then write.unackedCount else 0) seqNo
      { write with unackedCount := write.unackedCount - 1 }
    rw [found] at inserted
    simp only [if_neg last, Option.map_some, Option.getD_some] at inserted ⊢
    by_cases same : write.ackState = ackState
    · simp only [same, if_true] at inserted ⊢
      omega
    · simp only [same, if_false] at inserted ⊢
      omega

theorem Credited.signal {id : Nat}
    (credited : Credited shared acked ((id, owner) :: pending) registry.writtenInDeferred
      registry.ackStates) (signal : AckSignalled id registry after) :
    Credited shared (acked ++ [(id, owner)]) pending after.writtenInDeferred after.ackStates := by
  have row := credited.listed id
  have together : ∀ first ∈ pending, ∀ second ∈ pending, first.1 = second.1 → first.2 = second.2 :=
    fun first firstIn second secondIn =>
      credited.together first (.tail _ firstIn) second (.tail _ secondIn)
  have like (entry : Nat × Option Nat) (member : entry ∈ pending) (same : entry.1 = id) :
      entry.2 = owner := credited.together entry (.tail _ member) _ (.head _) same
  cases owner with
  | none =>
    have unlisted : Credited shared (acked ++ [(id, none)]) pending registry.writtenInDeferred
        registry.ackStates := by
      refine ⟨together, fun key => ?_, credited.distinct, fun ackState => ?_, fun ackState => ?_,
        fun ackState => ?_⟩
      · rw [credited.listed, rowOf_cons_none]
      · simpa using credited.unacked ackState
      · simpa using credited.writes ackState
      · simpa [ownedBy] using credited.acks ackState
    rw [rowOf_cons_none, rowOf_eq_none_of_unowned like, Option.map_eq_none_iff] at row
    cases signal with
    | deferred found => rw [row] at found; contradiction
    | plain => exact unlisted
    | transaction _ _ opens =>
      obtain ⟨written, ackStates⟩ := opens.deferred
      rw [written, ackStates]
      exact unlisted
  | some publication =>
    obtain ⟨left, here, rest⟩ := rowOf_cons_self like
    rw [here] at row
    obtain ⟨write, listed, same⟩ := Option.map_eq_some_iff.mp row
    obtain ⟨rfl, counts⟩ := Prod.mk.inj same
    cases signal with
    | plain missing | transaction missing => rw [listed] at missing; contradiction
    | deferred found =>
      rw [listed] at found
      cases found
      have down := unackedOf_countDown credited.distinct listed (by omega)
      refine ⟨together, fun key => ?_, distinct_countDown credited.distinct _ _, fun ackState => ?_,
        fun ackState => ?_, fun ackState => ?_⟩
      · rw [find_countDown]
        by_cases other : key = id
        · rw [if_pos other, other, rest, counts]
          simp only [Nat.add_eq_right]
          split <;> rfl
        · rw [if_neg other, credited.listed, rowOf_cons_ne (.symm other)]
      · have unacked := credited.unacked ackState
        rw [← down ackState, ownedBy_cons] at unacked
        simp only [Option.some.injEq] at unacked
        exact Nat.add_right_cancel unacked
      · rw [append_assoc, singleton_append, ← credited.writes]
        by_cases here : ackState = write.ackState
        · simp [here, Registry.counters, AckState.acknowledge]
        · simp [here]
      · rw [ownedBy_append, ← Nat.add_assoc, ← credited.acks]
        by_cases here : ackState = write.ackState
        · simp [here, ownedBy, Registry.counters, AckState.acknowledge]
        · simp [here, ownedBy, Ne.symm here]

theorem Credited.signalAll (signals : SignalledAll numbers registry after)
    (credited : Credited shared acked pending registry.writtenInDeferred registry.ackStates)
    (next : numbers <+: pending.map Prod.fst) :
    Credited shared (acked ++ pending.take numbers.length) (pending.drop numbers.length)
      after.writtenInDeferred after.ackStates := by
  induction signals generalizing acked pending with
  | nil => simpa using credited
  | cons first _ ih =>
    cases pending with
    | nil => simp at next
    | cons entry pending =>
      obtain ⟨rfl, tail⟩ := cons_prefix_cons.mp next
      have later := ih (credited.signal first) tail
      rw [append_assoc] at later
      exact later

theorem unackedOf_join (distinct : written.Distinct) {id : Nat}
    (owner : ∀ write, written.find id = some write → write.ackState = publication.ackState)
    (ackState : Nat) :
    unackedOf ackState (written.insert id (joinInFlight id publication written)) =
      unackedOf ackState written + if publication.ackState = ackState then 1 else 0 := by
  have weighed := Assoc.weigh_insert distinct
    (fun write => if write.ackState = ackState then write.unackedCount else 0) id
    (joinInFlight id publication written)
  unfold unackedOf
  cases found : written.find id with
  | none =>
    simpa [joinInFlight, found] using weighed
  | some write =>
    simp only [joinInFlight, found, Option.getD_some, Option.map_some, owner write found]
      at weighed ⊢
    by_cases same : publication.ackState = ackState
    · simp only [same, if_true] at weighed ⊢
      omega
    · simp only [same, if_false] at weighed ⊢
      omega

/-- A message is written.  Its number tells it from the pending ones of other
publications. -/
theorem Credited.accept {id : Nat}
    (credited : Credited shared acked pending registry.writtenInDeferred registry.ackStates)
    (tells : ∀ entry ∈ pending, entry.1 = id → entry.2 = context.publication)
    (registers : Registers id registry context txInfo after) :
    Credited shared acked (pending ++ [(id, context.publication)]) after.writtenInDeferred
      after.ackStates := by
  have together : ∀ first ∈ pending ++ [(id, context.publication)],
      ∀ second ∈ pending ++ [(id, context.publication)], first.1 = second.1 → first.2 = second.2 := by
    simp only [mem_append, mem_singleton]
    rintro first (firstIn | rfl) second (secondIn | rfl) same
    · exact credited.together first firstIn second secondIn same
    · exact tells first firstIn same
    · exact (tells second secondIn same.symm).symm
    · rfl
  have uncounted (outside : context.publication = none) :
      Credited shared acked (pending ++ [(id, context.publication)]) registry.writtenInDeferred
        registry.ackStates := by
    rw [outside] at together ⊢
    refine ⟨together, fun key => ?_, credited.distinct, fun ackState => ?_, fun ackState => ?_,
      credited.acks⟩
    · rw [credited.listed, rowOf_append_none]
    · simpa [ownedBy] using credited.unacked ackState
    · simpa [ownedBy] using credited.writes ackState
  cases registers with
  | plain => exact uncounted rfl
  | transaction opens =>
    obtain ⟨written, ackStates⟩ := opens.deferred
    rw [written, ackStates]
    exact uncounted rfl
  | deferred publication =>
    have owner (write : DeferredInFlightWrite)
        (found : registry.writtenInDeferred.find id = some write) :
        write.ackState = publication.ackState := by
      have row := credited.listed id
      rw [found] at row
      exact Option.some.inj (tells _ (exists_of_rowOf row.symm) rfl)
    refine ⟨together, fun key => ?_, credited.distinct.insert _ _, fun ackState => ?_,
      fun ackState => ?_, fun ackState => ?_⟩
    · rw [Assoc.find_insert, WriteContext.publication, rowOf_append, ← credited.listed]
      by_cases here : key = id
      · rw [here]
        cases found : registry.writtenInDeferred.find id <;> simp [joinInFlight, found]
      · rw [if_neg here, if_neg (Ne.symm here)]
    · rw [unackedOf_join credited.distinct owner, credited.unacked]
      simp [ownedBy, WriteContext.publication]
    · rw [← append_assoc, ownedBy_append, ← Nat.add_assoc, ← credited.writes]
      by_cases same : ackState = publication.ackState
      · simp [same, ownedBy, WriteContext.publication, Registry.counters]
      · simp [same, ownedBy, WriteContext.publication, Ne.symm same]
    · rw [← credited.acks]
      by_cases same : ackState = publication.ackState
      · simp [same, Registry.counters]
      · simp [same]

end

/-- The numbers and publications of the messages.  Those between `kept` and `resumed` were
given back by an abort and count for no publication. -/
def entriesOf (kept resumed : Nat) (messages : List Accepted) : List (Nat × Option Nat) :=
  messages.mapIdx fun place message =>
    (message.record.id, if kept ≤ place ∧ place < resumed then none else message.publication)

section

variable {kept resumed : Nat} {messages : List Accepted}

theorem entriesOf_numbers : (entriesOf kept resumed messages).map Prod.fst =
    messages.map fun message => message.record.id := by
  refine ext_getElem? fun place => ?_
  simp only [entriesOf, List.getElem?_map, List.getElem?_mapIdx, Option.map_map]
  rfl

theorem entriesOf_append (within : resumed ≤ messages.length) (message : Accepted) :
    entriesOf kept resumed (messages ++ [message]) =
      entriesOf kept resumed messages ++ [(message.record.id, message.publication)] := by
  simp [entriesOf, Nat.not_lt.mpr within]

theorem entriesOf_take (count : Nat) :
    (entriesOf kept resumed messages).take count = entriesOf kept resumed (messages.take count) := by
  refine ext_getElem? fun place => ?_
  simp only [entriesOf, List.getElem?_take, List.getElem?_mapIdx]
  split <;> rfl

theorem entriesOf_aborted (messages : List Accepted) (count : Nat) :
    (entriesOf count messages.length messages).take count = (entriesOf 0 0 messages).take count ∧
    (entriesOf count messages.length messages).drop count =
      ((entriesOf 0 0 messages).drop count).map fun entry => (entry.1, none) := by
  refine ⟨ext_getElem? fun place => ?_, ext_getElem? fun place => ?_⟩
  · simp only [entriesOf, List.getElem?_take]
    split
    · rename_i before
      simp [Nat.not_le.mpr before]
    · rfl
  · simp only [entriesOf, List.getElem?_drop, List.getElem?_map, List.getElem?_mapIdx]
    cases found : messages[count + place]? with
    | none => rfl
    | some message => simp [(List.getElem?_eq_some_iff.mp found).1]

theorem mem_entriesOf_drop
    (member : entry ∈ (entriesOf kept resumed messages).drop place) :
    ∃ later message, place ≤ later ∧ messages[later]? = some message ∧
      entry.1 = message.record.id ∧
      (entry.2 = message.publication ∨ entry.2 = none ∧ later < resumed) := by
  obtain ⟨offset, found⟩ := mem_iff_getElem?.mp member
  rw [List.getElem?_drop, entriesOf, List.getElem?_mapIdx] at found
  obtain ⟨message, inside, rfl⟩ := Option.map_eq_some_iff.mp found
  refine ⟨place + offset, message, Nat.le_add_right _ _, inside, rfl, ?_⟩
  split
  · rename_i window
    exact .inr ⟨rfl, window.2⟩
  · exact .inl rfl

theorem ownedBy_entriesOf (ordered : kept ≤ resumed) (ackState : Nat) :
    ownedBy ackState (entriesOf kept resumed messages) =
      publishedIn ackState (messages.take kept) + publishedIn ackState (messages.drop resumed) := by
  induction messages generalizing kept resumed with
  | nil => simp [entriesOf, ownedBy, publishedIn]
  | cons message rest ih =>
    have shifted : (entriesOf kept resumed (message :: rest)) =
        (message.record.id, if kept = 0 ∧ 0 < resumed then none else message.publication) ::
          entriesOf (kept - 1) (resumed - 1) rest := by
      simp only [entriesOf, mapIdx_cons, Nat.le_zero]
      congr
      funext place later
      congr 2
      simp only [eq_iff_iff]
      omega
    rw [shifted, ownedBy_cons, ih (Nat.sub_le_sub_right ordered 1)]
    cases resumed with
    | zero =>
      obtain rfl := Nat.le_zero.mp ordered
      simp [publishedIn, countP_cons]
    | succ resumed => cases kept <;> simp [publishedIn, countP_cons, Nat.add_right_comm]

end

end YdbSdk.Topic.WriteSession
