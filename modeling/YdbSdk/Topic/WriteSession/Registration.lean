import YdbSdk.Topic.WriteSession.Points

namespace YdbSdk.Topic.WriteSession

open YdbSdk.Control YdbSdk.Data Code

/-! # Transactions and deferred publications of a session

What registering a write, counting an acknowledgement and committing do to the registry.
No promise of a live transaction object is ever set twice.
-/

variable {index : Nat} {txId : TransactionId} {change : TransactionInfo → TransactionInfo}

section TxSound

variable {txs : Assoc TransactionId Nat} {txInfos : List TransactionInfo}

variable (sound : TxSound txs txInfos)
include sound

theorem TxSound.find (found : txs.find txId = some index) :
    ∃ info, txInfos[index]? = some info ∧ info.txId = txId ∧ info.allAcksReceived = none :=
  sound.unresolved _ (Assoc.mem_of_find found)

theorem TxSound.create (info : TransactionInfo) (unresolved : info.allAcksReceived = none) :
    TxSound (txs.insert info.txId txInfos.length) (txInfos ++ [info]) := by
  refine ⟨fun entry member => ?_, ?_⟩
  · rcases Assoc.mem_insert.mp member with rfl | ⟨earlier, _⟩
    · exact ⟨info, by simp, rfl, unresolved⟩
    · obtain ⟨other, found, named, unresolved⟩ := sound.unresolved entry earlier
      exact ⟨other, List.getElem?_append_left (List.getElem?_eq_some_iff.mp found).1 ▸ found,
        named, unresolved⟩
  · refine List.pairwise_cons.mpr ⟨fun entry member => ?_,
      sound.distinct.sublist (Assoc.erase_sublist _ _)⟩
    exact (Assoc.mem_erase.mp member).2.symm

theorem TxSound.modify (index : Nat) (named : ∀ info, (change info).txId = info.txId)
    (unresolved : ∀ info, info.allAcksReceived = none → (change info).allAcksReceived = none) :
    TxSound txs (txInfos.modify index change) := by
  refine ⟨fun entry member => ?_, sound.distinct⟩
  obtain ⟨info, found, same, untouched⟩ := sound.unresolved entry member
  by_cases here : index = entry.2
  · exact ⟨change info, by simp [here, found], (named info).trans same, unresolved info untouched⟩
  · exact ⟨info, by simp [here, found], same, untouched⟩

theorem TxSound.modify_at
    (found : txInfos[index]? = some info) (named : (change info).txId = info.txId)
    (unresolved : (change info).allAcksReceived = info.allAcksReceived) :
    TxSound txs (txInfos.modify index change) := by
  refine ⟨fun entry member => ?_, sound.distinct⟩
  obtain ⟨other, otherFound, same, untouched⟩ := sound.unresolved entry member
  by_cases here : index = entry.2
  · rw [here, otherFound] at found
    cases found
    exact ⟨change info, by simp [here, otherFound], named.trans same, unresolved.trans untouched⟩
  · exact ⟨other, by simp [here, otherFound], same, untouched⟩

theorem TxSound.modify_erase
    (found : txInfos[index]? = some info) (change : TransactionInfo → TransactionInfo) :
    TxSound (txs.erase info.txId) (txInfos.modify index change) := by
  refine ⟨fun entry member => ?_, sound.distinct.sublist (Assoc.erase_sublist _ _)⟩
  obtain ⟨earlier, differ⟩ := Assoc.mem_erase.mp member
  obtain ⟨other, otherFound, same, unresolved⟩ := sound.unresolved entry earlier
  have apart : index ≠ entry.2 := by
    intro equal
    rw [equal, otherFound] at found
    cases found
    exact differ same.symm
  exact ⟨other, by simp [apart, otherFound], same, unresolved⟩

end TxSound

section Registry

variable {before after : Registry}

theorem TxOpened.sound (opened : TxOpened txId before index after)
    (sound : TxSound before.txs before.txInfos) : TxSound after.txs after.txInfos := by
  cases opened with
  | found => exact sound
  | created => exact sound.create { txId := txId } rfl

theorem TxOpened.find (opened : TxOpened txId before index after) :
    after.txs.find txId = some index := by
  cases opened with
  | found named => exact named
  | created => simp

theorem Registers.sound {id : Nat}
    (registers : Registers id before context txInfo after)
    (sound : TxSound before.txs before.txInfos) : TxSound after.txs after.txInfos := by
  cases registers with
  | plain => exact sound
  | transaction opens => exact (opens.sound sound).modify _ (fun _ => rfl) (fun _ untouched => untouched)
  | deferred => exact sound

theorem AckSignalled.sound (signalled : AckSignalled seqNo before after)
    (sound : TxSound before.txs before.txInfos) : TxSound after.txs after.txInfos := by
  cases signalled with
  | deferred => exact sound
  | plain => exact sound
  | transaction _ _ opens found named _ =>
    split
    · rw [← named]
      exact (opens.sound sound).modify_erase found _
    · rename_i waits
      refine (opens.sound sound).modify_at found rfl ?_
      simp [TransactionInfo.acknowledge, waits]

theorem SignalledAll.sound (signalled : SignalledAll seqNos before after)
    (sound : TxSound before.txs before.txInfos) : TxSound after.txs after.txInfos := by
  induction signalled with
  | nil => exact sound
  | cons first _ ih => exact ih (first.sound sound)

end Registry

theorem At.sound {env : Environment} {event : Event} {start : State} {p : Point}
    (reached : At env event start p) : p.state.TxSound := by
  induction reached with
  | start sound => exact sound
  | move _ moved sound =>
    cases moved with
    | expires | aborts => exact ⟨nofun, .nil⟩
    | subscribes _ _ _ opens => exact (opens.sound sound).modify _ (fun _ => rfl) (fun _ _ => rfl)
    | accepts _ _ _ _ _ registers => exact registers.sound sound
    | acknowledges _ signals => exact signals.sound sound
    | commits found =>
      split
      · exact sound.modify_erase found _
      · rename_i missing
        exact sound.modify_at found (by simp [TransactionInfo.commit, missing])
          (by simp [TransactionInfo.commit, missing])
    | _ => exact sound

/-! ## The functions that change the registry -/

variable {state : State}

theorem getOrCreateTxInfo_spec (txId : TransactionId) (state : State) :
    (getOrCreateTxInfo txId).wp ⟨fun index after => ∃ opened,
          TxOpened txId state.registry index opened ∧ after = state.register opened,
        fun _ _ => False, fun _ => False⟩ state := by
  simp only [getOrCreateTxInfo, wp_rules]
  cases named : state.txs.find txId with
  | some index => exact ⟨_, .found named, rfl⟩
  | none => exact ⟨_, .created named, rfl⟩

theorem registerWrite_spec (id : Nat) (context : WriteContext) (state : State) :
    (registerWrite id context).wp ⟨fun result after =>
          result.1 = true ∧ (∃ registered, Registers id state.registry context result.2 registered ∧
            after = state.register registered) ∨ result.1 = false ∧ after = state,
        fun _ _ => False, fun _ => False⟩ state := by
  cases context with
  | plain => exact .inl ⟨rfl, _, .plain, rfl⟩
  | transaction txId =>
    simp only [registerWrite, wp_bind]
    refine wp_imp (getOrCreateTxInfo_spec txId state) ?_
    rintro index _ ⟨opened, opens, rfl⟩
    exact .inl ⟨rfl, _, .transaction opens, rfl⟩
  | deferred publication =>
    simp only [registerWrite, wp_rules]
    exact ⟨fun _ => .inr ⟨trivial, trivial⟩, fun _ => .inl ⟨trivial, _, .deferred publication, rfl⟩⟩

theorem trySignalAllAcksReceived_spec (seqNo : Nat) (sound : state.TxSound) :
    (trySignalAllAcksReceived seqNo).wp ⟨fun _ after => ∃ signalled,
          AckSignalled seqNo state.registry signalled ∧ after = state.register signalled,
        fun _ _ => False, fun assertion => assertion = .deferredAckCount ∨
          assertion = .deferredUnacked⟩ state := by
  simp only [trySignalAllAcksReceived, wp_rules]
  cases deferred : state.writtenInDeferred.find seqNo with
  | some write =>
    simp only [onDeferredAck, wp_rules]
    exact ⟨fun _ => ⟨fun _ => ⟨_, .deferred deferred, rfl⟩, fun _ => .inr trivial⟩,
      fun _ => .inl trivial⟩
  | none =>
    cases written : state.writtenInTx.find seqNo with
    | none => exact ⟨_, .plain deferred written, rfl⟩
    | some txId =>
      simp only [wp_bind]
      refine wp_imp (getOrCreateTxInfo_spec txId state) ?_
      rintro index _ ⟨opened, opens, rfl⟩
      obtain ⟨info, found, named, unresolved⟩ := (opens.sound sound).find opens.find
      have signalled := AckSignalled.transaction deferred written opens found named unresolved
      have counted : (opened.txInfos.modify index
          (fun info => { info with ackCount := info.ackCount + 1 }))[index]? =
            some { info with ackCount := info.ackCount + 1 } := by
        simp [found]
      simp only [updateTxInfo, wp_rules, State.register, counted]
      constructor
      · intro finishes
        have finishes : info.finishes = true := finishes
        refine wp_mono (setAllAcksReceived_spec counted _) ?_
          (fun _ _ again => again.1 (by exact unresolved))
        rintro _ _ ⟨_, rfl⟩
        rw [if_pos finishes] at signalled
        refine ⟨_, signalled, ?_⟩
        simp only [List.modify_modify_eq]
        rw [modify_congr_at found .acknowledge]
        simp [TransactionInfo.acknowledge, TransactionInfo.resolve, finishes]
      · intro waits
        have waits : info.finishes = false := waits
        rw [if_neg (by simp [waits])] at signalled
        refine ⟨_, signalled, ?_⟩
        rw [modify_congr_at found .acknowledge]
        simp [TransactionInfo.acknowledge, waits]

theorem signalEach_spec (firstId : Nat) (places : List Nat) (sound : state.TxSound) :
    (Code.forEach places (fun i => trySignalAllAcksReceived (firstId + i))).wp
      ⟨fun _ after => ∃ signalled, SignalledAll (places.map (firstId + ·)) state.registry signalled ∧
          after = state.register signalled,
        fun _ _ => False, fun assertion => assertion = .deferredAckCount ∨
          assertion = .deferredUnacked⟩ state := by
  induction places generalizing state with
  | nil => exact ⟨_, .nil _, rfl⟩
  | cons place rest ih =>
    simp only [Code.forEach, wp_bind]
    refine wp_then (trySignalAllAcksReceived_spec _ sound) ?_
    rintro _ _ ⟨middle, first, rfl⟩
    refine wp_then (ih (first.sound sound)) ?_
    rintro _ _ ⟨signalled, others, rfl⟩
    exact ⟨signalled, .cons first others, rfl⟩

theorem precommitCallback_spec (index : Nat) (state : State) :
    (precommitCallback index).wp
      ⟨fun _ after => after = state ∨ ∃ info, state.txInfos[index]? = some info ∧
          info.callbackAdded = true ∧ info.commitCalled = false ∧
          (info.writeCount = info.ackCount → info.allAcksReceived = none) ∧
          after = { state with
            txInfos := state.txInfos.modify index .commit
            txs := if info.writeCount = info.ackCount then state.txs.erase info.txId
              else state.txs }, fun _ after => ∃ info, state.txInfos[index]? = some info ∧
          info.callbackAdded = true ∧ info.commitCalled = false ∧
          info.writeCount = info.ackCount ∧ info.allAcksReceived ≠ none ∧
          after = { state with
            txInfos := state.txInfos.modify index
              (fun info => { info with commitCalled := true }) },
        fun assertion => assertion = .commitCalledOnce⟩ state := by
  simp only [precommitCallback, wp_rules]
  cases found : state.txInfos[index]? with
  | none => exact .inl rfl
  | some info =>
    cases added : info.callbackAdded with
    | false =>
      simp only [Option.filter, added]
      exact .inl rfl
    | true =>
      simp only [Option.filter_some, added, if_true, wp_rules]
      refine ⟨fun first => ?_, fun _ => trivial⟩
      have first : info.commitCalled = false := by simpa using first
      have called : (state.txInfos.modify index
          (fun info => { info with commitCalled := true }))[index]? =
            some { info with commitCalled := true } := by
        simp [found]
      refine ⟨fun complete => ?_, fun missing => ⟨fun active => ?_, fun inactive => ?_⟩⟩
      · refine wp_mono (setAllAcksReceived_spec called _) ?_ ?_
        · rintro _ _ ⟨unresolved, rfl⟩
          refine .inr ⟨info, rfl, added, first, fun _ => unresolved, ?_⟩
          simp only [List.modify_modify_eq, if_pos complete]
          rw [modify_congr_at found .commit]
          simp [TransactionInfo.commit, TransactionInfo.resolve, complete]
        · rintro _ _ ⟨resolved, rfl⟩
          exact ⟨info, rfl, added, first, complete, resolved, rfl⟩
      · refine .inr ⟨info, rfl, added, first, fun complete => absurd complete missing, ?_⟩
        simp only [List.modify_modify_eq, if_neg missing]
        rw [modify_congr_at found .commit]
        simp [TransactionInfo.commit, missing, active]
      · refine .inr ⟨info, rfl, added, first, fun complete => absurd complete missing, ?_⟩
        simp only [List.modify_modify_eq, if_neg missing]
        rw [modify_congr_at found .commit]
        simp [TransactionInfo.commit, missing, inactive]

end YdbSdk.Topic.WriteSession
