import YdbSdk.Topic.WriteSession.TxAccounts

namespace YdbSdk.Topic.WriteSession

open YdbSdk.Control YdbSdk.Data List

/-! # Acknowledged and committed transactions

An acknowledgement is counted for the transaction its message belongs to, and the
precommit callback finds the object in one of the phases it knows.
-/

variable {info : TransactionInfo} {index : Nat} {aborting live : Prop}

section Signal

variable {settled : Nat → Option Status} {accepted credited unacked rest : List Accepted}
  {aborted : Bool} {txs : Assoc TransactionId Nat} {infos : List TransactionInfo}
  {writtenInTx : Assoc Nat TransactionId} {message : Accepted}
  {writtenInDeferred : Assoc Nat DeferredInFlightWrite}

theorem Ledger.eq_of_id (ledger : Ledger unacked (message :: rest) writtenInTx writtenInDeferred) (member : listed ∈ message :: rest)
    (same : listed.record.id = message.record.id)
    (special : listed.record.writeContext ≠ .plain) : listed = message := by
  rcases mem_cons.mp member with here | later
  · exact here
  · have apart := pairwise_cons.mp (ledger.apart.sublist ledger.later.sublist)
    exact absurd (apart.1 listed later same.symm).2 special

theorem Ledger.signal (ledger : Ledger unacked (message :: rest) writtenInTx writtenInDeferred) (gone : left.find message.record.id = none)
    (kept : ∀ {id}, id ≠ message.record.id → left.find id = writtenInDeferred.find id) :
    Ledger unacked rest writtenInTx left := by
  refine { ledger with
    later := (suffix_cons _ _).trans ledger.later
    deferredWritten := fun {id _} listed => ?_ }
  by_cases same : id = message.record.id
  · rw [same, gone] at listed
    contradiction
  · rw [kept same] at listed
    obtain ⟨once, other, member, rfl, deferred⟩ := ledger.deferredWritten listed
    rcases mem_cons.mp member with rfl | later
    · contradiction
    · exact ⟨once, other, later, rfl, deferred⟩

theorem Ledger.release {front : List Accepted}
    (ledger : Ledger (front ++ rest) rest writtenInTx writtenInDeferred) :
    Ledger rest rest (writtenInTx.eraseAll (front.map fun message => message.record.id))
      writtenInDeferred := by
  have apart := pairwise_append.mp ledger.apart
  refine ⟨apart.2.1, suffix_refl _, fun message member => ?_, fun listed => ?_,
    ledger.deferredWritten⟩
  · rw [Assoc.find_eraseAll]
    split
    · -- A message with the number of a released one is plain.
      rename_i again
      obtain ⟨earlier, inside, same⟩ := mem_map.mp again
      rw [(apart.2.2 earlier inside message member same).2]
      rfl
    · exact ledger.inTx message (mem_append_right _ member)
  · rw [Assoc.find_eraseAll] at listed
    split at listed
    · contradiction
    · rename_i kept
      obtain ⟨message, member, rfl⟩ := ledger.txWritten listed
      rcases mem_append.mp member with released | still
      · exact absurd (mem_map_of_mem released) kept
      · exact ⟨message, still, rfl⟩

theorem TransactionInfo.acknowledge_of_waits (waits : info.finishes = false) :
    info.acknowledge = { info with ackCount := info.ackCount + 1 } := by
  simp [TransactionInfo.acknowledge, waits]

/-- The stray object counts the acknowledgement, and nobody asks it. -/
theorem Accounts.signal_stray (accounts : Accounts settled accepted credited true txs infos)
    (found : infos[index]? = some info) (unsubscribed : info.subscribed = false) :
    info.finishes = false ∧ Accounts settled accepted credited true txs
      (infos.modify index .acknowledge) := by
  have stray := accounts.strays found unsubscribed
  have waits : info.finishes = false := by simp [TransactionInfo.finishes, stray.uncalled]
  have acknowledged := TransactionInfo.acknowledge_of_waits waits
  refine ⟨waits, accounts.modify found (accounts.sound.modify_at found rfl (by rw [acknowledged]))
    (fun message member => (accounts.owned message member).modify found rfl rfl) rfl
    (fun subscribed => ?_) (fun _ => { stray with }) (fun _ _ => ⟨rfl, rfl⟩) (fun _ _ _ _ => id)
    (fun _ => id) (fun result => ?_)⟩
  · rw [unsubscribed] at subscribed
    contradiction
  · rw [TransactionInfo.precommitResult, stray.unawaited] at result
    contradiction

theorem Phase.acknowledge {stillLive : Prop} (phase : Phase aborting live info)
    (unresolved : info.allAcksReceived = none) (running : ¬aborting)
    (kept : info.finishes = false → live → stillLive) :
    Phase aborting stillLive info.acknowledge := by
  cases phase with
  | waiting _ named active _ awaited missing =>
    cases finishes : info.finishes with
    | true =>
      have both : info.commitCalled = true ∧ info.writeCount = info.ackCount + 1 := by
        simpa [TransactionInfo.finishes] using finishes
      refine .committed both.1 both.2 (by simp [TransactionInfo.acknowledge, finishes]) ?_
      rw [both.1] at awaited
      exact awaited
    | false =>
      rw [TransactionInfo.acknowledge_of_waits finishes]
      refine .waiting running (kept finishes named) active unresolved awaited (fun called => ?_)
      have called : info.commitCalled = true := called
      simpa [TransactionInfo.finishes, called] using finishes
  | committed _ _ resolved => rw [unresolved] at resolved; contradiction
  | expired aborted => exact absurd aborted running
  | idle aborted => exact absurd aborted running

theorem Accounts.update {counting : List Accepted} {done : Prop} [Decidable done]
    (accounts : Accounts settled accepted credited aborted txs infos)
    (found : infos[index]? = some info) (subscribed : info.subscribed = true)
    {change : TransactionInfo → TransactionInfo} (name : (change info).txId = info.txId)
    (stays : (change info).subscribed = info.subscribed)
    (named : aborted = false → done → txs.find info.txId = some index)
    (pending : ¬done → (change info).allAcksReceived = info.allAcksReceived)
    (unsettled : info.precommitResult = none)
    (counts : Counted accepted counting aborted (if done then txs.erase info.txId else txs) index
      (change info))
    (others : ∀ other, other ≠ index → writtenIn other counting = writtenIn other credited) :
    Accounts settled accepted counting aborted (if done then txs.erase info.txId else txs)
      (infos.modify index change) := by
  refine accounts.modify found ?_
    (fun other member => (accounts.owned other member).modify found name stays) stays
    (fun _ => counts) (fun unsubscribed => ?_) (fun other elsewhere => ⟨rfl, others other elsewhere⟩)
    (fun running txId other elsewhere live => ?_) (fun entry member => ?_) (fun result => ?_)
  · split
    · exact accounts.sound.modify_erase found _
    · rename_i waits
      exact accounts.sound.modify_at found name (pending waits)
  · rw [subscribed] at unsubscribed
    contradiction
  · split
    · rename_i isDone
      have differ : txId ≠ info.txId := by
        rintro rfl
        exact elsewhere (Option.some.inj (live.symm.trans (named running isDone)))
      simp [differ, live]
    · exact live
  · split at member
    · exact (Assoc.mem_erase.mp member).1
    · exact member
  · rw [unsettled] at result
    contradiction

theorem Accounts.signal_counted (accounts : Accounts settled accepted credited false txs infos)
    (counts : message.txInfo = some index) (found : infos[index]? = some info)
    (subscribed : info.subscribed = true) (unresolved : info.allAcksReceived = none)
    (named : txs.find info.txId = some index) :
    Accounts settled accepted (credited ++ [message]) false
      (if info.finishes then txs.erase info.txId else txs)
      (infos.modify index .acknowledge) := by
  have count := accounts.counted found subscribed
  refine accounts.update found subscribed rfl rfl (fun _ _ => named)
    (fun waits => by simp [TransactionInfo.acknowledge, waits]) (count.phase.unsettled unresolved)
    ⟨count.writes, ?_, ?_⟩ (fun other elsewhere => ?_)
  · rw [writtenIn_append, ← count.acks]
    simp [writtenIn, counts, TransactionInfo.acknowledge]
  · refine count.phase.acknowledge unresolved (by simp) (fun waits live => ?_)
    rw [if_neg (by simp [waits])]
    exact live
  · simp [writtenIn, counts, Ne.symm elsewhere]

theorem Accounts.awaited (accounts : Accounts settled accepted credited false txs infos)
    (member : message ∈ accepted) (fewer : credited ++ [message] <+: accepted) (inTx : message.record.writeContext.transactionId = some txId) :
    ∃ index info, message.txInfo = some index ∧ infos[index]? = some info ∧
      info.txId = txId ∧ info.subscribed = true ∧ txs.find txId = some index := by
  obtain ⟨index, info, counted, found, named, subscribed⟩ :=
    (accounts.owned message member).counted inTx
  refine ⟨index, info, counted, found, named, subscribed, ?_⟩
  have count := accounts.counted found subscribed
  cases count.phase with
  | waiting _ live => rw [← named]; exact live
  | committed _ complete =>
    -- The message itself is counted as written but not as acknowledged.
    have counts : writtenIn index (credited ++ [message]) ≤ writtenIn index accepted :=
      fewer.sublist.countP_le
    rw [writtenIn_append, ← count.acks, ← count.writes] at counts
    simp only [writtenIn, countP_singleton, counted, beq_self_eq_true, if_true] at counts
    omega
  | expired aborted => contradiction
  | idle aborted => contradiction

theorem Phase.unawaited (phase : Phase aborting live info) (uncalled : info.commitCalled = false) :
    info.precommit = none := by
  cases phase with
  | waiting _ _ _ _ awaited => simpa [uncalled] using awaited
  | committed called => rw [uncalled] at called; contradiction
  | expired _ _ _ _ awaited => simpa [uncalled] using awaited
  | idle _ _ _ _ _ unawaited => exact unawaited

theorem Phase.unresolved_of_complete (phase : Phase aborting live info)
    (uncalled : info.commitCalled = false) (complete : info.writeCount = info.ackCount) :
    info.allAcksReceived = none := by
  cases phase with
  | waiting _ _ _ unresolved => exact unresolved
  | committed called => rw [uncalled] at called; contradiction
  | expired _ _ missing => exact absurd complete missing
  | idle _ _ _ _ unresolved => exact unresolved

theorem Phase.commit (phase : Phase aborting live info)
    (kept : info.writeCount ≠ info.ackCount → live → stillLive) :
    Phase aborting stillLive info.commit := by
  by_cases complete : info.writeCount = info.ackCount
  · refine .committed ?_ ?_ ?_ ?_ <;> simp [TransactionInfo.commit, complete]
  · cases phase with
    | waiting running named active unresolved _ _ =>
      refine .waiting running (kept complete named) ?_ ?_ ?_ ?_ <;>
        simp [TransactionInfo.commit, complete, active, unresolved]
    | committed _ already => exact absurd already complete
    | expired aborted inactive _ resolved _ =>
      refine .expired aborted ?_ ?_ ?_ ?_ <;>
        simp [TransactionInfo.commit, complete, inactive, resolved]
    | idle _ _ already => exact absurd already complete

variable (accounts : Accounts settled accepted credited aborted txs infos)
include accounts

theorem Accounts.subscribed_of_added
    (found : infos[index]? = some info) (added : info.callbackAdded = true) :
    info.subscribed = true := by
  cases subscribed : info.subscribed with
  | true => rfl
  | false => rw [(accounts.strays found subscribed).unadded] at added; contradiction

/-- The precommit callback never sets a promise twice. -/
theorem Accounts.unresolved_of_complete
    (found : infos[index]? = some info) (added : info.callbackAdded = true)
    (uncalled : info.commitCalled = false) (complete : info.writeCount = info.ackCount) :
    info.allAcksReceived = none :=
  (accounts.counted found (accounts.subscribed_of_added found added)).phase.unresolved_of_complete
    uncalled complete

theorem Accounts.commit (found : infos[index]? = some info) (added : info.callbackAdded = true)
    (uncalled : info.commitCalled = false) :
    Accounts settled accepted credited aborted
      (if info.writeCount = info.ackCount then txs.erase info.txId else txs)
      (infos.modify index .commit) := by
  have subscribed := accounts.subscribed_of_added found added
  have count := accounts.counted found subscribed
  -- Neither the name nor the counters of the object change.
  have same {β : Type} (view : TransactionInfo → β)
      (blind : ∀ info called resolved awaited, view { info with
        commitCalled := called, allAcksReceived := resolved, precommit := awaited } = view info) :
      view info.commit = view info := by
    unfold TransactionInfo.commit
    split <;> exact blind _ _ _ _
  have name := same TransactionInfo.txId (fun _ _ _ _ => rfl)
  refine accounts.update found subscribed name
    (same TransactionInfo.subscribed fun _ _ _ _ => rfl) (fun running _ => ?_)
    (fun missing => by simp [TransactionInfo.commit, missing])
    (by rw [TransactionInfo.precommitResult, count.phase.unawaited uncalled])
    ⟨(same TransactionInfo.writeCount fun _ _ _ _ => rfl).trans count.writes,
      (same TransactionInfo.ackCount fun _ _ _ _ => rfl).trans count.acks, ?_⟩ (fun _ _ => rfl)
  · cases count.phase with
    | waiting _ named => exact named
    | committed called => rw [uncalled] at called; contradiction
    | expired aborted => contradiction
    | idle aborted => rw [running] at aborted; contradiction
  · refine count.phase.commit (fun missing live => ?_)
    rw [name, if_neg missing]
    exact live

end Signal

section

variable {settled : Nat → Option Status} {signalled : Nat} {message : Accepted} {state : State}
  {registry after : Registry}

theorem Tracked.signal_uncounted (tracked : Tracked settled state signalled registry)
    (found : state.accepted[signalled]? = some message) (outside : message.txInfo = none) :
    Accounts settled state.accepted
      (state.accepted.take (state.ackedAtAbort.getD (signalled + 1))) state.aborting registry.txs
      registry.txInfos := by
  refine tracked.accounts.recount tracked.accounts.owned (fun _ => rfl) (fun index => ?_)
  cases state.ackedAtAbort with
  | some base => rfl
  | none =>
    rw [Option.getD_none, take_add_one, found]
    simp [writtenIn, outside]

/-- An acknowledgement that comes after the abort opens an object of its own. -/
theorem Accounts.openStray {accepted credited : List Accepted} {txId : TransactionId}
    {opened : Registry} (accounts : Accounts settled accepted credited true registry.txs registry.txInfos)
    (opens : TxOpened txId registry index opened) :
    Accounts settled accepted credited true opened.txs opened.txInfos := by
  cases opens with
  | found => exact accounts
  | created missing =>
    exact accounts.create { txId := txId } missing rfl nofun (fun _ => ⟨rfl, rfl, rfl, rfl⟩)
      (fun _ => rfl)

theorem Tracked.signal (tracked : Tracked settled state signalled registry)
    (found : state.accepted[signalled]? = some message)
    (signal : AckSignalled message.record.id registry after) :
    Tracked settled state (signalled + 1) after := by
  obtain ⟨inside, here⟩ := List.getElem?_eq_some_iff.mp found
  have member := mem_of_getElem? found
  have accounts := tracked.accounts
  have owned := accounts.owned message member
  have ledger := tracked.ledger
  rw [drop_eq_getElem_cons inside, here] at ledger
  have listed := ledger.inTx message (ledger.later.subset (.head _))
  have frozen {base : Nat} (stopped : state.ackedAtAbort = some base) : base ≤ signalled + 1 :=
    Nat.le_succ_of_le (tracked.frozen stopped)
  cases signal with
  | deferred write =>
    obtain ⟨once, other, later, same, publication, deferred⟩ := ledger.deferredWritten write
    obtain rfl := ledger.eq_of_id later same (by rw [deferred]; simp)
    rw [countDown, if_pos once]
    exact ⟨tracked.aborts, frozen, inside,
      ledger.signal (by simp) (fun differ => by simp [differ]),
      tracked.signal_uncounted found (owned.uncounted (by rw [deferred]; rfl))⟩
  | plain notDeferred notTx =>
    exact ⟨tracked.aborts, frozen, inside, ledger.signal notDeferred (fun _ => rfl),
      tracked.signal_uncounted found (owned.uncounted (listed.symm.trans notTx))⟩
  | @transaction txId index opened info notDeferred written opens infoFound named unresolved =>
    cases running : state.aborting with
    | false =>
      have unaborted := tracked.unaborted running
      have next : state.accepted.take (signalled + 1) =
          state.accepted.take signalled ++ [message] := by
        rw [take_add_one, found, Option.toList_some]
      rw [running, unaborted, Option.getD_none] at accounts
      obtain ⟨place, awaiting, counted, awaitingFound, name, subscribed, live⟩ :=
        accounts.awaited member (next ▸ take_prefix _ _) (listed.symm.trans written)
      cases opens with
      | created missing => rw [live] at missing; contradiction
      | found again =>
        rw [live] at again
        cases again
        rw [awaitingFound] at infoFound
        cases infoFound
        subst named
        have counts := accounts.signal_counted counted awaitingFound subscribed unresolved live
        rw [← next, ← running] at counts
        refine ⟨tracked.aborts, frozen, inside, ledger.signal notDeferred (fun _ => rfl), ?_⟩
        rw [unaborted]
        exact counts
    | true =>
      obtain ⟨base, stopped⟩ := Option.isSome_iff_exists.mp (tracked.aborts.trans running)
      rw [running, stopped] at accounts
      have openedAccounts := accounts.openStray opens
      obtain ⟨again, againFound, unsubscribed⟩ :=
        openedAccounts.forgotten rfl _ (Assoc.mem_of_find opens.find)
      rw [infoFound] at againFound
      cases againFound
      obtain ⟨waits, counts⟩ := openedAccounts.signal_stray infoFound unsubscribed
      rw [if_neg (by simp [waits])]
      have tracks : Accounts settled state.accepted
          (state.accepted.take (state.ackedAtAbort.getD (signalled + 1))) state.aborting opened.txs
          (opened.txInfos.modify index .acknowledge) := by
        rw [running, stopped]
        exact counts
      have ledger := ledger.signal notDeferred (fun _ => rfl)
      cases opens <;> exact ⟨tracked.aborts, frozen, inside, ledger, tracks⟩

def State.numbersFrom (state : State) (place : Nat) : List Nat :=
  (state.accepted.drop place).map (fun message => message.record.id)

theorem next_of_prefix
    (next : seqNo :: rest <+: state.numbersFrom place) :
    ∃ message, state.accepted[place]? = some message ∧ message.record.id = seqNo ∧
      rest <+: state.numbersFrom (place + 1) := by
  have some : place < state.accepted.length := by
    have length := next.length_le
    simp only [State.numbersFrom, length_map, length_drop, length_cons] at length
    omega
  simp only [State.numbersFrom, drop_eq_getElem_cons some] at next
  obtain ⟨same, tail⟩ := cons_prefix_cons.mp next
  exact ⟨state.accepted[place], List.getElem?_eq_getElem some, same.symm, tail⟩

theorem Tracked.signalAll (signals : SignalledAll numbers registry after)
    (tracked : Tracked settled state signalled registry) (next : numbers <+: state.numbersFrom signalled) :
    Tracked settled state (signalled + numbers.length) after := by
  induction signals generalizing signalled with
  | nil => exact tracked
  | @cons seqNo rest before middle after first others ih =>
    obtain ⟨message, found, named, tail⟩ := next_of_prefix next
    rw [← named] at first
    have rest := ih (tracked.signal found first) tail
    rw [length_cons, Nat.add_comm _ 1, ← Nat.add_assoc]
    exact rest

theorem Tracked.release {numbers : List Nat} (released : List MessageRecord)
    (tracked : Tracked settled state (state.acked.length + numbers.length) registry)
    (front : numbers <+: state.numbersFrom state.acked.length)
    (length : released.length = numbers.length) :
    Tracked settled { state with acked := state.acked ++ released } (state.acked ++ released).length
      { registry with writtenInTx := registry.writtenInTx.eraseAll numbers } := by
  have split : state.accepted.drop state.acked.length =
      (state.accepted.drop state.acked.length).take numbers.length ++
        state.accepted.drop (state.acked.length + numbers.length) := by
    rw [← drop_drop, take_append_drop]
  have named := prefix_iff_eq_take.mp front
  rw [State.numbersFrom, ← map_take] at named
  have ledger := tracked.ledger
  rw [split] at ledger
  have left := ledger.release
  rw [← named] at left
  rw [length_append, length]
  refine { tracked with ledger := ?_ }
  simp only [length_append, length]
  exact left

end

section

variable {env : Environment} {event : Event} {start state : State} {p q : Point}

def State.SentCounted (state : State) : Prop :=
  ∀ block ∈ state.sentPackedMessage, 0 < block.messageCount

theorem BlockTaken.counted_pos (taking : BlockTaken state request block taken kept extended) :
    0 < block.messageCount := by
  obtain ⟨first, _, message, _, originals, head, _⟩ := taking.carried
  rw [← taking.counted, length_pos_iff]
  rintro rfl
  rw [originals] at head
  contradiction

theorem State.SentCounted.move (counted : p.state.SentCounted) (moved : Move env event start p q) :
    q.state.SentCounted := by
  cases moved with
  | sends sent =>
    intro block member
    rcases mem_append.mp member with earlier | last
    · exact counted block earlier
    · rw [mem_singleton.mp last]
      exact sent.counted_pos
  | @acknowledges _ firstId =>
    intro block member
    refine counted block ?_
    unfold State.packedAfterAck at member
    split at member
    · rename_i front rest sent
      rw [sent]
      split at member
      · exact mem_cons_of_mem _ member
      · exact member
    · exact absurd member not_mem_nil
  | restarts => exact fun _ member => absurd member not_mem_nil
  | _ => exact counted

theorem State.SentCounted.acked_pos (counted : state.SentCounted) (id : Nat) :
    0 < ackedMessageCount state id := by
  unfold ackedMessageCount
  cases sent : state.sentPackedMessage with
  | nil => exact Nat.one_pos
  | cons front rest =>
    simp only
    split
    · exact counted front (by rw [sent]; exact mem_cons_self)
    · exact Nat.one_pos

theorem Conserving.sent_prefix (conserving : Conserving p) :
    p.state.sentOriginalMessages.map (fun message => message.id) <+:
      p.state.numbersFrom p.state.acked.length := by
  have records := congrArg (fun records => (records.drop p.state.acked.length).map MessageRecord.id)
    conserving.conserved
  simp only [Point.pipeline, drop_left, map_append, map_map] at records
  have numbers : p.state.numbersFrom p.state.acked.length =
      ((p.state.accepted.map Accepted.record).drop p.state.acked.length).map MessageRecord.id := by
    rw [State.numbersFrom, map_drop, map_drop, map_map]
    rfl
  rw [numbers, ← records]
  exact prefix_append _ _

theorem Conserving.released_prefix (conserving : Conserving p) (ids : released.map (fun message => message.id) = numbers)
    (split : p.state.sentOriginalMessages = released ++ kept) :
    numbers <+: p.state.numbersFrom p.state.acked.length := by
  refine .trans ?_ conserving.sent_prefix
  rw [split, map_append, ids]
  exact prefix_append _ _

/-- The messages are conserved, automatic numbers are above all others, and every block that
was sent holds a message. -/
structure Tallied (p : Point) : Prop extends Conserving p where
  numbered : p.state.autoSeqNoMode ≠ some false →
    ∀ message ∈ p.state.accepted, message.record.id ≤ p.state.nextId
  sentCounted : p.state.SentCounted

theorem tallied_start (registry : Registry) : Tallied { state := .register {} registry } where
  conserved := rfl
  reported := .slnil
  numbered := fun _ _ member => absurd member List.not_mem_nil
  sentCounted := fun _ member => absurd member List.not_mem_nil

theorem notManual_of_or
    (notManual : mode.or (some automatic) ≠ some false) : mode ≠ some false := fun manual => by
  rw [manual] at notManual
  exact notManual rfl

theorem Tallied.automatic_new (tallied : Tallied p) {seqNo : Option Nat}
    (automatic : p.state.autoSeqNoMode.or (some seqNo.isNone) = some true) {earlier : Accepted}
    (member : earlier ∈ p.state.accepted) : earlier.record.id ≠ p.state.nextId + 1 := by
  intro same
  have notManual := notManual_of_or fun manual => absurd (automatic.symm.trans manual) nofun
  have below := tallied.numbered notManual earlier member
  rw [same] at below
  exact absurd below (Nat.not_succ_le_self _)

theorem Tallied.move (tallied : Tallied p) (moved : Move env event start p q) : Tallied q := by
  have conserving := tallied.toConserving.move moved
  refine { conserving with numbered := ?_, sentCounted := tallied.sentCounted.move moved }
  cases moved with
  | fixes => exact fun notManual => absurd rfl notManual
  | numbers =>
    intro notManual message member
    exact Nat.le_succ_of_le (tallied.numbered (notManual_of_or notManual) message member)
  | accepts _ _ _ numbered =>
    intro notManual accepted member
    rcases mem_append.mp member with earlier | last
    · exact Nat.le_succ_of_le (tallied.numbered (notManual_of_or notManual) accepted earlier)
    · rw [mem_singleton.mp last]
      rcases numbered with ⟨_, manual⟩ | ⟨_, automatic, _⟩
      · exact absurd manual notManual
      · exact Nat.le_of_eq automatic
  | _ => exact tallied.numbered

theorem Tallied.thrown {after : State} (tallied : Tallied p) (cleared : p.flushing = false)
    (throws : Throws env event start p after) : Tallied { state := after } := by
  have conserving := tallied.toConserving.thrown cleared throws
  cases throws <;> exact { conserving with
    numbered := tallied.numbered, sentCounted := tallied.sentCounted }

end

end YdbSdk.Topic.WriteSession
