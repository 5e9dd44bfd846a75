import YdbSdk.Topic.WriteSession.Session

namespace YdbSdk.Topic.WriteSession

open YdbSdk.Control YdbSdk.Data Code

/-! # Transaction objects and the abort of the session

The map `Txs` names the object of each live transaction.  A live object has not
been resolved, so the promise of a transaction is never set twice and aborting the
session does not throw.
-/

variable {state : State} {index : Nat}

/-- The objects that `Txs` names exist, belong to the transaction they are named
for, and are not resolved. -/
structure TxSound (txs : Assoc TransactionId Nat) (txInfos : List TransactionInfo) : Prop where
  unresolved : ∀ entry ∈ txs, ∃ info, txInfos[entry.2]? = some info ∧
    info.txId = entry.1 ∧ info.allAcksReceived = none
  distinct : txs.Pairwise (fun first second => first.1 ≠ second.1)

abbrev State.TxSound (state : State) : Prop :=
  WriteSession.TxSound state.txs state.txInfos

def TransactionInfo.cancelled (info : TransactionInfo) : TransactionInfo :=
  if info.writeCount ≠ info.ackCount then
    { info with isActive := false, allAcksReceived := some .sessionExpired }
  else { info with isActive := false }

def cancelledInfos (txs : Assoc TransactionId Nat) (txInfos : List TransactionInfo) :
    List TransactionInfo :=
  txs.foldl (fun infos entry => infos.modify entry.2 .cancelled) txInfos

/-- The state after an abort; only the counters of deferred publications are not
determined by the session. -/
def State.aborted (state : State) (ackStates : Assoc Nat AckState) : State :=
  { state with
    aborting := true
    ackedAtAbort := some state.acked.length
    txs := []
    txInfos := cancelledInfos state.txs state.txInfos
    writtenInDeferred := []
    ackStates
    flushResults := state.flushResults ++
      completeFlushes false (state.originalMessagesToSend ++ state.sentOriginalMessages)
    originalMessagesToSend := state.originalMessagesToSend.map .withoutPromise
    sentOriginalMessages := state.sentOriginalMessages.map .withoutPromise }

theorem TxSound.modify_other {txs : Assoc TransactionId Nat} (sound : WriteSession.TxSound (first :: txs) txInfos)
    (change : TransactionInfo → TransactionInfo) :
    WriteSession.TxSound txs (txInfos.modify first.2 change) := by
  obtain ⟨info, found, same, _⟩ := sound.unresolved first (by simp)
  have apart := List.pairwise_cons.mp sound.distinct
  refine ⟨fun entry member => ?_, apart.2⟩
  obtain ⟨other, otherFound, otherSame, open'⟩ := sound.unresolved entry (by simp [member])
  refine ⟨other, ?_, otherSame, open'⟩
  -- Two transactions never share an object: the object knows its transaction.
  have differ : first.2 ≠ entry.2 := by
    intro equal
    rw [equal, otherFound] at found
    cases found
    exact apart.1 entry member (same.symm.trans otherSame)
  simp [differ, otherFound]

theorem setAllAcksReceived_spec {info : TransactionInfo} (found : state.txInfos[index]? = some info)
    (status : Status) :
    (setAllAcksReceived index status).wp
      ⟨fun _ after => info.allAcksReceived = none ∧ after = { state with
          txInfos := state.txInfos.modify index (.resolve status) },
        fun _ after => info.allAcksReceived ≠ none ∧ after = state, fun _ => False⟩ state := by
  cases resolved : info.allAcksReceived <;>
    simp [setAllAcksReceived, found, resolved, updateTxInfo]

theorem modify_congr_at {items : List α} (found : items[index]? = some item) (other : α → α) (same : change item = other item) :
    items.modify index change = items.modify index other := by
  apply List.ext_getElem?
  intro place
  by_cases here : index = place
  · subst here
    simp [found, same]
  · simp [here]

theorem cancelTransaction_spec {info : TransactionInfo} (found : state.txInfos[index]? = some info)
    (unresolved : info.allAcksReceived = none) :
    (cancelTransaction index).wp ⟨fun _ after => after = { state with
          txInfos := state.txInfos.modify index .cancelled },
        fun _ _ => False, fun _ => False⟩ state := by
  simp only [cancelTransaction, updateTxInfo, wp_rules]
  have present : (state.txInfos.modify index (fun info => { info with isActive := false }))[index]? =
      some { info with isActive := false } := by
    simp [found]
  constructor
  · intro counted
    have differ : info.writeCount ≠ info.ackCount := by
      simpa [present] using counted
    refine wp_mono (setAllAcksReceived_spec present _) ?_
      (fun _ _ again => again.1 (by exact unresolved))
    rintro _ _ ⟨_, rfl⟩
    simp only [List.modify_modify_eq]
    rw [modify_congr_at found .cancelled]
    simp [TransactionInfo.cancelled, TransactionInfo.resolve, differ]
  · intro counted
    have equal : info.writeCount = info.ackCount := by
      simpa [present] using counted
    rw [modify_congr_at found .cancelled]
    simp [TransactionInfo.cancelled, equal]

theorem cancelTransactions_spec (sound : state.TxSound) :
    cancelTransactions.wp ⟨fun _ after => after = { state with
          txs := [], txInfos := cancelledInfos state.txs state.txInfos },
        fun _ _ => False, fun _ => False⟩ state := by
  simp only [cancelTransactions, wp_rules]
  refine wp_forEach
    (fun rest middle => ∃ infos, middle = { state with txInfos := infos } ∧
      WriteSession.TxSound rest infos ∧
      cancelledInfos rest infos = cancelledInfos state.txs state.txInfos)
    ⟨state.txInfos, rfl, sound, rfl⟩ ?_ ?_
  · rintro entry rest _ ⟨infos, rfl, restSound, same⟩
    obtain ⟨info, found, _, unresolved⟩ := restSound.unresolved entry (by simp)
    refine wp_then (cancelTransaction_spec found unresolved) ?_
    rintro _ _ rfl
    exact ⟨_, rfl, restSound.modify_other _, by rw [← same]; rfl⟩
  · rintro _ ⟨infos, rfl, _, same⟩
    rw [← same]
    rfl

def State.counters (state : State) (ackState : Nat) : AckState :=
  (state.ackStates.find ackState).getD {}

def unackedOf (ackState : Nat) (written : Assoc Nat DeferredInFlightWrite) : Nat :=
  written.weigh (fun write => if write.ackState = ackState then write.unackedCount else 0)

/-- The counters once these unacknowledged writes were given back. -/
def AckState.giveBack (unackedCount : Nat) (counters : AckState) : AckState :=
  if unackedCount = 0 then counters
  else if counters.waitCalled then
    { counters with
      isSealed := false, waitCalled := false
      allAcksReceived := counters.allAcksReceived.or (some .sessionExpired)
      writeCount := counters.writeCount - unackedCount }
  else { counters with writeCount := counters.writeCount - unackedCount }

theorem onUnackedAbort_spec (ackState unackedCount : Nat) (state : State) :
    (onUnackedAbort ackState unackedCount).wp
      ⟨fun _ after => after = { state with ackStates := after.ackStates } ∧
          ∀ other, after.counters other =
            if other = ackState then (state.counters other).giveBack unackedCount
            else state.counters other, fun _ _ => False,
        fun assertion => assertion = .deferredAbortCount ∧
          (state.counters ackState).writeCount < (state.counters ackState).ackCount + unackedCount⟩
      state := by
  simp only [onUnackedAbort, wp_rules, decide_eq_false_iff_not, Nat.not_le]
  refine ⟨fun none => ⟨trivial, fun other => ?_⟩, fun some => ⟨fun _ => ⟨trivial, fun other => ?_⟩,
    fun short => ⟨trivial, short⟩⟩⟩
  · simp [AckState.giveBack, none]
  · simp only [State.counters, Assoc.find_insert]
    by_cases same : other = ackState
    · rw [if_pos same, if_pos same, same, AckState.giveBack]
      split <;> rfl
    · rw [if_neg same, if_neg same]

theorem unackedByState_spec (written : Assoc Nat DeferredInFlightWrite) {counts : Assoc Nat Nat}
    (distinct : counts.Distinct) : let added := written.foldl (fun counts entry =>
      counts.insert entry.2.ackState
        ((counts.find entry.2.ackState).getD 0 + entry.2.unackedCount)) counts
    added.Distinct ∧ ∀ ackState,
      (added.find ackState).getD 0 = (counts.find ackState).getD 0 + unackedOf ackState written := by
  induction written generalizing counts with
  | nil => exact ⟨distinct, fun _ => rfl⟩
  | cons entry rest ih =>
    obtain ⟨still, sums⟩ := ih (distinct.insert entry.2.ackState
      ((counts.find entry.2.ackState).getD 0 + entry.2.unackedCount))
    refine ⟨still, fun ackState => (sums ackState).trans ?_⟩
    have unfolded : unackedOf ackState (entry :: rest) =
        (if entry.2.ackState = ackState then entry.2.unackedCount else 0) +
          unackedOf ackState rest := by
      simp [unackedOf, Assoc.weigh]
    rw [unfolded, Assoc.find_insert]
    by_cases same : ackState = entry.2.ackState
    · simp only [same, if_true, Option.getD_some]
      omega
    · rw [if_neg same, if_neg (Ne.symm same)]
      omega

theorem cancelDeferredPublications_spec (state : State) :
    cancelDeferredPublications.wp ⟨fun _ after => after = { state with
          writtenInDeferred := [], ackStates := after.ackStates } ∧
          ∀ ackState, after.counters ackState =
            (state.counters ackState).giveBack (unackedOf ackState state.writtenInDeferred),
        fun _ _ => False, fun assertion => assertion = .deferredAbortCount ∧ ∃ ackState,
          (state.counters ackState).writeCount <
            (state.counters ackState).ackCount + unackedOf ackState state.writtenInDeferred⟩
      state := by
  simp only [cancelDeferredPublications, wp_rules]
  have noCounts : Assoc.Distinct ([] : Assoc Nat Nat) := .nil
  obtain ⟨distinct, sums⟩ := unackedByState_spec state.writtenInDeferred noCounts
  generalize state.writtenInDeferred.foldl _ _ = counts at distinct sums
  have counted (entry : Nat × Nat) (member : entry ∈ counts) :
      entry.2 = unackedOf entry.1 state.writtenInDeferred := by
    have sum := sums entry.1
    rw [distinct.find_eq_some.mpr member] at sum
    simpa using sum
  -- The publications of `rest` still have their counters, the others have given back.
  refine wp_forEach
    (fun rest middle => middle = { state with
        writtenInDeferred := [], ackStates := middle.ackStates } ∧ Assoc.Distinct rest ∧
      (∀ entry ∈ rest, entry.2 = unackedOf entry.1 state.writtenInDeferred) ∧
      ∀ ackState, middle.counters ackState =
        if (Assoc.find ackState rest).isSome then state.counters ackState
        else (state.counters ackState).giveBack (unackedOf ackState state.writtenInDeferred))
    ⟨rfl, distinct, counted, fun ackState => ?_⟩ ?_ (fun _ kept => ⟨kept.1, kept.2.2.2⟩)
  · cases found : counts.find ackState with
    | some count => rfl
    | none =>
      have nothing := sums ackState
      rw [found] at nothing
      simp only [Option.getD_none, Assoc.find_nil, Nat.zero_add] at nothing
      rw [← nothing]
      rfl
  · intro entry rest middle kept
    obtain ⟨same, distinct, counted, counters⟩ := kept
    obtain ⟨apart, distinct⟩ := List.pairwise_cons.mp distinct
    obtain ⟨count, counted⟩ := List.forall_mem_cons.mp counted
    have here : middle.counters entry.1 = state.counters entry.1 := by
      rw [counters, if_pos (by simp [Assoc.find])]
    have gone : Assoc.find entry.1 rest = none :=
      Assoc.find_eq_none.mpr fun other member => (apart other member).symm
    refine wp_mono_stops (onUnackedAbort_spec entry.1 entry.2 middle) ?_ (fun _ _ => id) ?_
    · intro _ after given
      refine ⟨by rw [given.1, same], distinct, counted, fun ackState => ?_⟩
      rw [given.2]
      by_cases chosen : ackState = entry.1
      · rw [if_pos chosen, chosen, gone, here, count]
        rfl
      · rw [if_neg chosen, counters]
        simp [Assoc.find, Ne.symm chosen]
    · intro assertion failed
      rw [here, count] at failed
      exact ⟨failed.1, entry.1, failed.2⟩

theorem abortImpl_spec (sound : state.TxSound) :
    abortImpl.wp ⟨fun _ after => (state.aborting = true ∧ after = state) ∨
          (state.aborting = false ∧ after = state.aborted after.ackStates ∧
            ∀ ackState, after.counters ackState =
              (state.counters ackState).giveBack (unackedOf ackState state.writtenInDeferred)),
        fun _ _ => False, fun assertion => assertion = .deferredAbortCount ∧ ∃ ackState,
          (state.counters ackState).writeCount <
            (state.counters ackState).ackCount + unackedOf ackState state.writtenInDeferred⟩
      state := by
  simp only [abortImpl, wp_rules]
  refine ⟨fun aborting => .inl ⟨aborting, trivial⟩, fun running => ?_⟩
  have running : state.aborting = false := by simpa using running
  refine wp_imp (cancelTransactions_spec (by exact sound)) ?_
  intro _ cancelled same
  rw [same]
  refine wp_then (cancelDeferredPublications_spec _) ?_
  intro _ after deferred
  refine .inr ⟨running, ?_, deferred.2⟩
  rw [deferred.1]
  rfl

end YdbSdk.Topic.WriteSession
