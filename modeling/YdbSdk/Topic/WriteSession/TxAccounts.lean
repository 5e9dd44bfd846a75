import YdbSdk.Data.Tally
import YdbSdk.Topic.WriteSession.Conservation

namespace YdbSdk.Topic.WriteSession

open YdbSdk.Control YdbSdk.Data List

/-! # The accounts of transactions

Each transaction object counts the messages written in it and those of them that
were acknowledged before the session aborted.  What its precommit future says
follows from the two counters, from whether the commit was called and from whether
the session aborted before all messages were acknowledged.
-/

variable {index : Nat} {info : TransactionInfo} {aborting live : Prop}

def writtenIn (index : Nat) (messages : List Accepted) : Nat :=
  messages.countP (fun message => message.txInfo == some index)

/-- Two messages can be told apart by their numbers, or neither belongs to a
transaction or a deferred publication. -/
def Accepted.Separate (first second : Accepted) : Prop :=
  first.record.id = second.record.id →
    first.record.writeContext = .plain ∧ second.record.writeContext = .plain

/-- What `WrittenInTx` and the in-flight deferred writes say about the messages that are
not acknowledged and those of them that are not counted. -/
structure Ledger (unacked uncounted : List Accepted) (writtenInTx : Assoc Nat TransactionId)
    (writtenInDeferred : Assoc Nat DeferredInFlightWrite) : Prop where
  apart : unacked.Pairwise Accepted.Separate
  later : uncounted <:+ unacked
  inTx : ∀ message ∈ unacked,
    writtenInTx.find message.record.id = message.record.writeContext.transactionId
  txWritten : ∀ {id txId}, writtenInTx.find id = some txId →
    ∃ message ∈ unacked, message.record.id = id
  deferredWritten : ∀ {id write}, writtenInDeferred.find id = some write →
    write.unackedCount = 1 ∧ ∃ message ∈ uncounted, message.record.id = id ∧
      ∃ publication, message.record.writeContext = .deferred publication

/-- The states of a transaction object whose commit is awaited. -/
inductive Phase (aborting live : Prop) (info : TransactionInfo) : Prop where
  /-- The session runs, and the object waits for acknowledgements or for the commit. -/
  | waiting (running : ¬aborting) (named : live) (active : info.isActive = true)
      (unresolved : info.allAcksReceived = none)
      (awaited : info.precommit = if info.commitCalled then some .allAcksReceived else none)
      (missing : info.commitCalled = true → info.writeCount ≠ info.ackCount)
  | committed (called : info.commitCalled = true) (complete : info.writeCount = info.ackCount)
      (resolved : info.allAcksReceived = some .success)
      (awaited : info.precommit = some .allAcksReceived)
  /-- The session aborted before all acknowledgements had come. -/
  | expired (aborted : aborting) (inactive : info.isActive = false)
      (missing : info.writeCount ≠ info.ackCount)
      (resolved : info.allAcksReceived = some .sessionExpired)
      (awaited : if info.commitCalled then
          info.precommit = some .allAcksReceived ∨ info.precommit = some (.ready .sessionExpired)
        else info.precommit = none)
  /-- The session aborted after all acknowledgements and before the commit. -/
  | idle (aborted : aborting) (inactive : info.isActive = false)
      (complete : info.writeCount = info.ackCount) (uncalled : info.commitCalled = false)
      (unresolved : info.allAcksReceived = none) (unawaited : info.precommit = none)

structure Counted (accepted credited : List Accepted) (aborted : Bool)
    (txs : Assoc TransactionId Nat) (index : Nat) (info : TransactionInfo) : Prop where
  writes : info.writeCount = writtenIn index accepted
  acks : info.ackCount = writtenIn index credited
  phase : Phase (aborted = true) (txs.find info.txId = some index) info

/-- An object that a late acknowledgement made after the session aborted. -/
structure Stray (aborted : Bool) (info : TransactionInfo) : Prop where
  aborted : aborted = true
  unadded : info.callbackAdded = false
  uncalled : info.commitCalled = false
  unawaited : info.precommit = none

structure Owned (infos : List TransactionInfo) (message : Accepted) : Prop where
  counted : ∀ {txId}, message.record.writeContext.transactionId = some txId →
    ∃ index info, message.txInfo = some index ∧ infos[index]? = some info ∧ info.txId = txId ∧
      info.subscribed = true
  uncounted : message.record.writeContext.transactionId = none → message.txInfo = none

/-- The transaction objects.  The messages `credited` were acknowledged in time, and
`settled` names results that were given. -/
structure Accounts (settled : Nat → Option Status) (accepted credited : List Accepted)
    (aborted : Bool) (txs : Assoc TransactionId Nat) (infos : List TransactionInfo) : Prop where
  sound : TxSound txs infos
  owned : ∀ message ∈ accepted, Owned infos message
  counted : ∀ {index : Nat} {info : TransactionInfo}, infos[index]? = some info →
    info.subscribed = true → Counted accepted credited aborted txs index info
  strays : ∀ {index : Nat} {info : TransactionInfo}, infos[index]? = some info →
    info.subscribed = false → Stray aborted info
  forgotten : aborted = true → ∀ entry ∈ txs,
    ∃ info, infos[entry.2]? = some info ∧ info.subscribed = false
  settles : ∀ {index status}, settled index = some status →
    ∃ info, infos[index]? = some info ∧ info.precommitResult = some status

theorem TransactionInfo.cancelled_cancelled (info : TransactionInfo) :
    info.cancelled.cancelled = info.cancelled := by
  by_cases missing : info.writeCount = info.ackCount <;> simp [TransactionInfo.cancelled, missing]

@[simp] theorem TransactionInfo.cancelled_subscribed (info : TransactionInfo) :
    info.cancelled.subscribed = info.subscribed := by
  unfold TransactionInfo.cancelled
  split <;> rfl

@[simp] theorem TransactionInfo.cancelled_writeCount (info : TransactionInfo) :
    info.cancelled.writeCount = info.writeCount := by
  unfold TransactionInfo.cancelled
  split <;> rfl

@[simp] theorem TransactionInfo.cancelled_ackCount (info : TransactionInfo) :
    info.cancelled.ackCount = info.ackCount := by
  unfold TransactionInfo.cancelled
  split <;> rfl

@[simp] theorem TransactionInfo.cancelled_txId (info : TransactionInfo) :
    info.cancelled.txId = info.txId := by
  unfold TransactionInfo.cancelled
  split <;> rfl

theorem getElem?_cancelledInfos (txs : Assoc TransactionId Nat) (infos : List TransactionInfo)
    (index : Nat) : (cancelledInfos txs infos)[index]? = infos[index]?.map (fun info =>
      if index ∈ txs.map Prod.snd then info.cancelled else info) := by
  induction txs generalizing infos with
  | nil => simp [cancelledInfos]
  | cons entry rest ih =>
    have unfolded : cancelledInfos (entry :: rest) infos =
        cancelledInfos rest (infos.modify entry.2 .cancelled) := rfl
    rw [unfolded, ih, List.getElem?_modify]
    cases infos[index]? with
    | none => simp
    | some info =>
      by_cases here : entry.2 = index
      · by_cases later : index ∈ rest.map Prod.snd <;>
          simp [here, TransactionInfo.cancelled_cancelled]
      · by_cases later : index ∈ rest.map Prod.snd <;> simp [here, later, Ne.symm here]

section

variable {settled : Nat → Option Status} {accepted credited : List Accepted} {aborted : Bool}
  {txs : Assoc TransactionId Nat} {infos : List TransactionInfo}

theorem TxSound.unresolved_of_mem (sound : TxSound txs infos) (named : index ∈ txs.map Prod.snd)
    (found : infos[index]? = some info) : info.allAcksReceived = none := by
  obtain ⟨entry, member, rfl⟩ := mem_map.mp named
  obtain ⟨other, otherFound, _, unresolved⟩ := sound.unresolved entry member
  rw [found] at otherFound
  cases otherFound
  exact unresolved

theorem Phase.cancel {stopped after named : Prop} [Decidable named] (phase : Phase aborting live info)
    (running : ¬aborting) (stops : stopped) (naming : live → named)
    (unresolved : named → info.allAcksReceived = none) :
    Phase stopped after (if named then info.cancelled else info) := by
  cases phase with
  | waiting _ isLive _ noResult awaited missing =>
    rw [if_pos (naming isLive)]
    by_cases complete : info.writeCount = info.ackCount
    · have uncalled : info.commitCalled = false := by
        simpa using fun called => missing called complete
      refine .idle stops ?_ ?_ ?_ ?_ ?_ <;>
        simp [TransactionInfo.cancelled, complete, uncalled, noResult, awaited]
    · refine .expired stops ?_ ?_ ?_ ?_ <;>
        simp [TransactionInfo.cancelled, complete, awaited]
  | committed called complete resolved awaited =>
    rw [if_neg fun isNamed => by rw [unresolved isNamed] at resolved; contradiction]
    exact .committed called complete resolved awaited
  | expired aborted => exact absurd aborted running
  | idle aborted => exact absurd aborted running

theorem Phase.unsettled (phase : Phase aborting live info)
    (unresolved : info.allAcksReceived = none) : info.precommitResult = none := by
  cases phase with
  | waiting _ _ _ _ awaited =>
    cases called : info.commitCalled <;>
      simp [TransactionInfo.precommitResult, awaited, called, unresolved]
  | committed _ _ resolved => rw [unresolved] at resolved; contradiction
  | expired _ _ _ resolved => rw [unresolved] at resolved; contradiction
  | idle _ _ _ _ _ unawaited => simp [TransactionInfo.precommitResult, unawaited]

theorem Accounts.subscribed (accounts : Accounts settled accepted credited false txs infos)
    (found : infos[index]? = some info) : info.subscribed = true := by
  cases subscribed : info.subscribed with
  | true => rfl
  | false => exact absurd (accounts.strays found subscribed).aborted (by simp)

theorem Accounts.abort (accounts : Accounts settled accepted credited false txs infos) :
    Accounts settled accepted credited true [] (cancelledInfos txs infos) := by
  refine ⟨⟨nofun, .nil⟩, fun message member => ?_, fun found subscribed => ?_,
    fun found unsubscribed => ?_, nofun, fun given => ?_⟩
  · have owned := accounts.owned message member
    refine ⟨fun inTx => ?_, owned.uncounted⟩
    obtain ⟨index, info, counted, found, named, subscribed⟩ := owned.counted inTx
    refine ⟨index, _, counted, by rw [getElem?_cancelledInfos, found]; rfl, ?_, ?_⟩
    · split <;> simp [named]
    · split <;> simp [subscribed]
  · rw [getElem?_cancelledInfos] at found
    obtain ⟨earlier, earlierFound, rfl⟩ := Option.map_eq_some_iff.mp found
    have counted := accounts.counted earlierFound (accounts.subscribed earlierFound)
    refine ⟨?_, ?_, counted.phase.cancel (by simp) rfl (fun live => ?_)
      (fun named => accounts.sound.unresolved_of_mem named earlierFound)⟩
    · split <;> simp [counted.writes]
    · split <;> simp [counted.acks]
    · exact mem_map.mpr ⟨_, Assoc.mem_of_find live, rfl⟩
  · rw [getElem?_cancelledInfos] at found
    obtain ⟨earlier, earlierFound, rfl⟩ := Option.map_eq_some_iff.mp found
    have subscribed := accounts.subscribed earlierFound
    split at unsubscribed <;> simp [subscribed] at unsubscribed
  · obtain ⟨info, found, result⟩ := accounts.settles given
    refine ⟨info, ?_, result⟩
    have counted := accounts.counted found (accounts.subscribed found)
    rw [getElem?_cancelledInfos, found, Option.map_some, if_neg]
    intro named
    rw [counted.phase.unsettled (accounts.sound.unresolved_of_mem named found)] at result
    contradiction

theorem writtenIn_eq_zero
    (none : ∀ message ∈ messages, message.txInfo ≠ some index) : writtenIn index messages = 0 := by
  rw [writtenIn]
  simpa using none

theorem Phase.mono (phase : Phase aborting live info)
    (kept : ¬aborting → live → stillLive) : Phase aborting stillLive info := by
  cases phase with
  | waiting running named active unresolved awaited missing =>
    exact .waiting running (kept running named) active unresolved awaited missing
  | committed called complete resolved awaited => exact .committed called complete resolved awaited
  | expired aborted inactive missing resolved awaited =>
    exact .expired aborted inactive missing resolved awaited
  | idle aborted inactive complete uncalled unresolved unawaited =>
    exact .idle aborted inactive complete uncalled unresolved unawaited

theorem Owned.modify
    (owned : Owned infos message) (found : infos[index]? = some info) (name : (change info).txId = info.txId)
    (subscribed : (change info).subscribed = info.subscribed) :
    Owned (infos.modify index change) message := by
  refine ⟨fun inTx => ?_, owned.uncounted⟩
  obtain ⟨place, other, counted, otherFound, named, otherSubscribed⟩ := owned.counted inTx
  by_cases here : index = place
  · subst here
    rw [found] at otherFound
    cases otherFound
    exact ⟨index, change info, counted, by simp [found], name.trans named,
      subscribed.trans otherSubscribed⟩
  · exact ⟨place, other, counted, by simp [here, otherFound], named, otherSubscribed⟩

section

variable (accounts : Accounts settled accepted credited aborted txs infos)
include accounts

theorem Accounts.recount {counted : List Accepted}
    (owned : ∀ message ∈ messages, Owned infos message)
    (writes : ∀ index, writtenIn index messages = writtenIn index accepted)
    (acks : ∀ index, writtenIn index counted = writtenIn index credited) :
    Accounts settled messages counted aborted txs infos := by
  refine { accounts with owned, counted := fun found subscribed => ?_ }
  have kept := accounts.counted found subscribed
  exact ⟨kept.writes.trans (writes _).symm, kept.acks.trans (acks _).symm, kept.phase⟩

theorem Accounts.modify {counted : List Accepted}
    (found : infos[index]? = some info)
    (sound : TxSound names (infos.modify index change))
    (owned : ∀ message ∈ messages, Owned (infos.modify index change) message)
    (subscribed : (change info).subscribed = info.subscribed)
    (counts : info.subscribed = true → Counted messages counted aborted names index (change info))
    (stray : info.subscribed = false → Stray aborted (change info)) (others : ∀ other, other ≠ index →
      writtenIn other messages = writtenIn other accepted ∧
      writtenIn other counted = writtenIn other credited)
    (naming : aborted = false → ∀ {txId other}, other ≠ index → txs.find txId = some other →
      names.find txId = some other) (fewer : ∀ entry ∈ names, entry ∈ txs)
    (settles : ∀ {status}, info.precommitResult = some status →
      (change info).precommitResult = some status) :
    Accounts settled messages counted aborted names (infos.modify index change) := by
  -- An object is the changed one, or one of the earlier ones.
  have origin {place : Nat} {new : TransactionInfo}
      (newFound : (infos.modify index change)[place]? = some new) :
      place = index ∧ new = change info ∨ place ≠ index ∧ infos[place]? = some new := by
    rw [List.getElem?_modify] at newFound
    by_cases here : index = place
    · subst here
      rw [found] at newFound
      exact .inl ⟨rfl, by simpa using newFound.symm⟩
    · exact .inr ⟨.symm here, by simpa [here] using newFound⟩
  -- An object has what its successor has.
  have kept {place : Nat} {old : TransactionInfo} {fact : TransactionInfo → Prop}
      (oldFound : infos[place]? = some old) (holds : fact old)
      (changed : fact info → fact (change info)) :
      ∃ new, (infos.modify index change)[place]? = some new ∧ fact new := by
    by_cases here : index = place
    · rw [here, oldFound] at found
      cases found
      exact ⟨change info, by simp [here, oldFound], changed holds⟩
    · exact ⟨old, by simp [here, oldFound], holds⟩
  refine ⟨sound, owned, fun {place new} newFound newSubscribed => ?_,
    fun newFound newUnsubscribed => ?_, fun stopped entry member => ?_, fun given => ?_⟩
  · rcases origin newFound with ⟨rfl, rfl⟩ | ⟨elsewhere, earlier⟩
    · exact counts (subscribed.symm.trans newSubscribed)
    · have before := accounts.counted earlier newSubscribed
      obtain ⟨sameWrites, sameAcks⟩ := others place elsewhere
      exact ⟨before.writes.trans sameWrites.symm, before.acks.trans sameAcks.symm,
        before.phase.mono fun running => naming (by simpa using running) elsewhere⟩
  · rcases origin newFound with ⟨rfl, rfl⟩ | ⟨_, earlier⟩
    · exact stray (subscribed.symm.trans newUnsubscribed)
    · exact accounts.strays earlier newUnsubscribed
  · obtain ⟨named, namedFound, unsubscribed⟩ := accounts.forgotten stopped entry (fewer entry member)
    exact kept namedFound unsubscribed subscribed.trans
  · obtain ⟨old, oldFound, result⟩ := accounts.settles given
    exact kept oldFound result settles

omit accounts in
theorem getElem?_append_last {items : List α} :
    (items ++ [last])[place]? = some item ↔
      items[place]? = some item ∨ place = items.length ∧ item = last := by
  rw [List.getElem?_append]
  split
  · exact ⟨.inl, fun either => either.elim id (fun same => by omega)⟩
  · rename_i late
    have none : items[place]? = none := List.getElem?_eq_none (Nat.le_of_not_lt late)
    rw [none]
    by_cases here : place = items.length
    · simp [here, eq_comm]
    · have beyond : place - items.length ≠ 0 := by omega
      simp [here, beyond]

theorem Accounts.create (info : TransactionInfo) (missing : txs.find info.txId = none)
    (unresolved : info.allAcksReceived = none) (counted : info.subscribed = true →
      Counted accepted credited aborted (txs.insert info.txId infos.length) infos.length info)
    (stray : info.subscribed = false → Stray aborted info)
    (forgotten : aborted = true → info.subscribed = false) :
    Accounts settled accepted credited aborted (txs.insert info.txId infos.length)
      (infos ++ [info]) := by
  have kept {place : Nat} {other : TransactionInfo} (found : infos[place]? = some other) :
      (infos ++ [info])[place]? = some other := getElem?_append_last.mpr (.inl found)
  refine ⟨accounts.sound.create info unresolved, fun message member => ?_,
    fun {place other} found subscribed => ?_, fun found unsubscribed => ?_,
    fun stopped entry member => ?_, fun given => ?_⟩
  · refine ⟨fun inTx => ?_, (accounts.owned message member).uncounted⟩
    obtain ⟨place, other, inside, found, rest⟩ := (accounts.owned message member).counted inTx
    exact ⟨place, other, inside, kept found, rest⟩
  · rcases getElem?_append_last.mp found with earlier | ⟨rfl, rfl⟩
    · have before := accounts.counted earlier subscribed
      refine ⟨before.writes, before.acks, before.phase.mono fun _ live => ?_⟩
      have differ : other.txId ≠ info.txId := fun same => by
        rw [same, missing] at live
        contradiction
      simp [differ, live]
    · exact counted subscribed
  · rcases getElem?_append_last.mp found with earlier | ⟨_, rfl⟩
    · exact accounts.strays earlier unsubscribed
    · exact stray unsubscribed
  · rcases Assoc.mem_insert.mp member with rfl | ⟨earlier, _⟩
    · exact ⟨info, by simp, forgotten stopped⟩
    · obtain ⟨other, found, unsubscribed⟩ := accounts.forgotten stopped entry earlier
      exact ⟨other, kept found, unsubscribed⟩
  · obtain ⟨other, found, result⟩ := accounts.settles given
    exact ⟨other, kept found, result⟩

theorem Accounts.unused : ∀ message ∈ accepted, message.txInfo ≠ some infos.length := by
  intro message member same
  have owned := accounts.owned message member
  cases context : message.record.writeContext.transactionId with
  | none => rw [owned.uncounted context] at same; contradiction
  | some owner =>
    obtain ⟨index, info, counted, found, _⟩ := owned.counted context
    rw [same, Option.some.injEq] at counted
    rw [← counted] at found
    simp at found

end

theorem Accounts.subscribe (accounts : Accounts settled accepted credited false txs infos)
    (fewer : credited ⊆ accepted) {txId : TransactionId} (missing : txs.find txId = none)
    (added : Bool) :
    Accounts settled accepted credited false (txs.insert txId infos.length)
      (infos ++ [.subscribe added { txId }]) := by
  refine accounts.create (.subscribe added { txId }) missing rfl
    (fun _ => ⟨?_, ?_, ?_⟩) nofun nofun
  · exact (writtenIn_eq_zero accounts.unused).symm
  · exact (writtenIn_eq_zero fun message member => accounts.unused message (fewer member)).symm
  · exact .waiting (by simp) (by simp [TransactionInfo.subscribe]) rfl rfl rfl
      (fun called => by simp [TransactionInfo.subscribe] at called)

theorem Ledger.unlisted {id : Nat}
    (ledger : Ledger unacked uncounted writtenInTx writtenInDeferred)
    (plain : ∀ earlier ∈ unacked, earlier.record.id = id → earlier.record.writeContext = .plain) :
    writtenInTx.find id = none ∧ writtenInDeferred.find id = none := by
  constructor
  · cases written : writtenInTx.find id with
    | none => rfl
    | some txId =>
      obtain ⟨message, member, rfl⟩ := ledger.txWritten written
      have listed := ledger.inTx message member
      rw [plain message member rfl, written] at listed
      contradiction
  · cases written : writtenInDeferred.find id with
    | none => rfl
    | some write =>
      obtain ⟨_, message, member, rfl, publication, deferred⟩ := ledger.deferredWritten written
      have plain := plain message (ledger.later.subset member) rfl
      rw [deferred] at plain
      contradiction

theorem Ledger.accept
    (ledger : Ledger unacked uncounted writtenInTx writtenInDeferred)
    (separate : ∀ earlier ∈ unacked, earlier.Separate message)
    (listedTx : newTx.find message.record.id = message.record.writeContext.transactionId)
    (otherTx : ∀ {id}, id ≠ message.record.id → newTx.find id = writtenInTx.find id)
    (listedDeferred : ∀ {write}, newDeferred.find message.record.id = some write →
      write.unackedCount = 1 ∧ ∃ publication, message.record.writeContext = .deferred publication)
    (otherDeferred : ∀ {id}, id ≠ message.record.id →
      newDeferred.find id = writtenInDeferred.find id) :
    Ledger (unacked ++ [message]) (uncounted ++ [message]) newTx newDeferred := by
  obtain ⟨counted, together⟩ := ledger.later
  refine ⟨?_, ⟨counted, by rw [← together, append_assoc]⟩, fun item member => ?_,
    fun {id _} written => ?_, fun {id _} written => ?_⟩
  · refine pairwise_append.mpr ⟨ledger.apart, pairwise_singleton _ _, ?_⟩
    simpa using separate
  · rcases mem_append.mp member with earlier | last
    · by_cases same : item.record.id = message.record.id
      · obtain ⟨plain, newPlain⟩ := separate item earlier same
        rw [same, listedTx, plain, newPlain]
      · rw [otherTx same]
        exact ledger.inTx item earlier
    · rw [mem_singleton.mp last]
      exact listedTx
  · by_cases same : id = message.record.id
    · exact ⟨message, by simp, same.symm⟩
    · rw [otherTx same] at written
      obtain ⟨item, member, named⟩ := ledger.txWritten written
      exact ⟨item, mem_append_left _ member, named⟩
  · by_cases same : id = message.record.id
    · rw [same] at written
      obtain ⟨once, deferred⟩ := listedDeferred written
      exact ⟨once, message, by simp, same.symm, deferred⟩
    · rw [otherDeferred same] at written
      obtain ⟨once, item, member, rest⟩ := ledger.deferredWritten written
      exact ⟨once, item, mem_append_left _ member, rest⟩

theorem writtenIn_append (index : Nat) (first second : List Accepted) :
    writtenIn index (first ++ second) = writtenIn index first + writtenIn index second :=
  countP_append

theorem writtenIn_take_le (index count : Nat) (messages : List Accepted) :
    writtenIn index (messages.take count) ≤ writtenIn index messages :=
  (take_sublist count messages).countP_le

theorem Accounts.accept_uncounted (accounts : Accounts settled accepted credited aborted txs infos) (outside : record.writeContext.transactionId = none) :
    Accounts settled (accepted ++ [{ record, txInfo := none }]) credited aborted txs infos := by
  refine accounts.recount ?_ (fun index => ?_) (fun _ => rfl)
  · intro message member
    rcases mem_append.mp member with earlier | last
    · exact accounts.owned message earlier
    · rw [mem_singleton.mp last]
      exact ⟨fun inTx => by rw [outside] at inTx; contradiction, fun _ => rfl⟩
  · rw [writtenIn_append]
    exact Nat.add_zero _

theorem Accounts.accept_counted (accounts : Accounts settled accepted credited false txs infos)
    (fewer : ∀ index, writtenIn index credited ≤ writtenIn index accepted)
    (named : txs.find txId = some index)
    (inTx : record.writeContext = .transaction txId) :
    Accounts settled (accepted ++ [{ record, txInfo := some index }]) credited false txs
      (infos.modify index fun info => { info with writeCount := info.writeCount + 1 }) := by
  obtain ⟨info, found, name, unresolved⟩ := accounts.sound.find named
  have subscribed := accounts.subscribed found
  have counted := accounts.counted found subscribed
  refine accounts.modify found (accounts.sound.modify index (fun _ => rfl) (fun _ => id)) ?_ rfl
    (fun _ => ⟨?_, counted.acks, ?_⟩) (fun unsubscribed => ?_) (fun other elsewhere => ⟨?_, rfl⟩)
    (fun _ _ _ _ => id) (fun _ => id) (fun kept => kept)
  · intro message member
    rcases mem_append.mp member with earlier | last
    · exact (accounts.owned message earlier).modify found rfl rfl
    · rw [mem_singleton.mp last]
      refine ⟨fun inside => ⟨index, { info with writeCount := info.writeCount + 1 }, rfl,
        by simp [found], ?_, subscribed⟩, fun outside => ?_⟩
      · rw [inTx] at inside
        exact name.trans (Option.some.inj inside)
      · rw [inTx] at outside
        contradiction
  · rw [writtenIn_append, ← counted.writes]
    simp [writtenIn]
  · have fewer : info.ackCount ≤ info.writeCount := by
      rw [counted.acks, counted.writes]
      exact fewer index
    cases counted.phase with
    | waiting running live active unresolved awaited missing =>
      exact .waiting running live active unresolved awaited (fun _ => by simp; omega)
    | committed _ _ resolved => rw [unresolved] at resolved; contradiction
    | expired aborted => contradiction
    | idle aborted => contradiction
  · rw [subscribed] at unsubscribed
    contradiction
  · simp [writtenIn, Ne.symm elsewhere]

end

/-- The first `signalled` accepted messages were counted in the registry, those after an
abort in vain. -/
structure Tracked (settled : Nat → Option Status) (state : State) (signalled : Nat)
    (registry : Registry) : Prop where
  aborts : state.ackedAtAbort.isSome = state.aborting
  frozen : ∀ {base}, state.ackedAtAbort = some base → base ≤ signalled
  within : signalled ≤ state.accepted.length
  ledger : Ledger (state.accepted.drop state.acked.length) (state.accepted.drop signalled)
    registry.writtenInTx registry.writtenInDeferred
  accounts : Accounts settled state.accepted
    (state.accepted.take (state.ackedAtAbort.getD signalled)) state.aborting registry.txs
    registry.txInfos

section

variable {settled : Nat → Option Status} {signalled : Nat} {state : State} {registry : Registry}

theorem Tracked.unaborted (tracked : Tracked settled state signalled registry)
    (running : state.aborting = false) : state.ackedAtAbort = none := by
  simpa [running] using tracked.aborts

variable (tracked : Tracked settled state state.acked.length state.registry)
include tracked

theorem Tracked.abort (running : state.aborting = false) (ackStates : Assoc Nat AckState) :
    Tracked settled (state.aborted ackStates) state.acked.length
      (state.aborted ackStates).registry := by
  have accounts := tracked.accounts
  rw [running, tracked.unaborted running] at accounts
  exact ⟨rfl, fun same => Nat.le_of_eq (Option.some.inj same).symm, tracked.within,
    { tracked.ledger with deferredWritten := nofun }, accounts.abort⟩

theorem Tracked.subscribe
    (running : state.aborting = false) (opens : TxOpened txId state.registry index opened)
    (found : opened.txInfos[index]? = some info) (unsubscribed : info.subscribed = false)
    (added : Bool) :
    Tracked settled state state.acked.length
      { opened with txInfos := opened.txInfos.modify index (.subscribe added) } := by
  have accounts := tracked.accounts
  rw [running] at accounts
  cases opens with
  | found => exact absurd (unsubscribed.symm.trans (accounts.subscribed found)) nofun
  | created missing =>
    refine { tracked with accounts := ?_ }
    rw [running, modify_append_last]
    exact accounts.subscribe (take_subset _ _) missing added

/-- A message with this number and context can be told apart from all messages that
are not acknowledged, or is as plain as they are. -/
def State.Admits (state : State) (id : Nat) (context : WriteContext) : Prop :=
  ∀ place earlier, state.acked.length ≤ place →
    state.accepted[place]? = some earlier → earlier.record.id = id →
    earlier.record.writeContext = .plain ∧ context = .plain

theorem Tracked.accept
    (ledger : Ledger (state.accepted.drop state.acked.length ++ [message])
      (state.accepted.drop state.acked.length ++ [message]) registry.writtenInTx
      registry.writtenInDeferred)
    (accounts : Accounts settled (state.accepted ++ [message])
      (state.accepted.take (state.ackedAtAbort.getD state.acked.length)) state.aborting
      registry.txs registry.txInfos) :
    Tracked settled { state with accepted := state.accepted ++ [message] } state.acked.length
      registry := by
  have older : state.ackedAtAbort.getD state.acked.length ≤ state.accepted.length := by
    cases stopped : state.ackedAtAbort with
    | none => exact tracked.within
    | some base => exact Nat.le_trans (tracked.frozen stopped) tracked.within
  rw [← drop_append_of_le_length tracked.within] at ledger
  rw [← take_append_of_le_length older] at accounts
  exact ⟨tracked.aborts, tracked.frozen, Nat.le_trans tracked.within (by simp), ledger, accounts⟩

theorem Tracked.register (record : MessageRecord) {context : WriteContext} {txInfo : Option Nat}
    (inContext : record.writeContext = context) (admits : state.Admits record.id context)
    (ready : ∀ txId, context = .transaction txId →
      state.aborting = false ∧ ∃ index, state.txs.find txId = some index)
    (registers : Registers record.id state.registry context txInfo registry) :
    Tracked settled { state with accepted := state.accepted ++ [{ record, txInfo }] }
      state.acked.length registry := by
  have admitted (earlier : Accepted) (member : earlier ∈ state.accepted.drop state.acked.length)
      (same : earlier.record.id = record.id) :
      earlier.record.writeContext = .plain ∧ context = .plain := by
    obtain ⟨offset, found⟩ := mem_iff_getElem?.mp member
    rw [List.getElem?_drop] at found
    exact admits _ earlier (Nat.le_add_right _ _) found same
  have separate : ∀ earlier ∈ state.accepted.drop state.acked.length,
      earlier.Separate { record, txInfo } :=
    fun earlier member same => inContext ▸ admitted earlier member same
  obtain ⟨notInTx, notDeferred⟩ := tracked.ledger.unlisted fun earlier member same =>
    (admitted earlier member same).1
  cases registers with
  | plain =>
    refine tracked.accept (tracked.ledger.accept separate ?_ (fun _ => rfl) (fun listed => ?_)
      (fun _ => rfl)) (tracked.accounts.accept_uncounted (by rw [inContext]; rfl))
    · rw [inContext]
      exact notInTx
    · exact absurd (notDeferred.symm.trans listed) nofun
  | @transaction txId index _ opens =>
    obtain ⟨running, _, named⟩ := ready txId rfl
    cases opens with
    | created missing => exact absurd (named.symm.trans missing) nofun
    | found named =>
      have accounts := tracked.accounts
      rw [running] at accounts
      have counted := accounts.accept_counted (fun _ => writtenIn_take_le _ _ _) named inContext
      rw [← running] at counted
      refine tracked.accept (tracked.ledger.accept separate ?_ (fun differ => ?_)
        (fun listed => ?_) (fun _ => rfl)) counted
      · simp [inContext, WriteContext.transactionId]
      · simp [differ]
      · exact absurd (notDeferred.symm.trans listed) nofun
  | deferred publication =>
    refine tracked.accept (tracked.ledger.accept separate ?_ (fun _ => rfl) (fun listed => ?_)
      (fun differ => ?_)) (tracked.accounts.accept_uncounted (by rw [inContext]; rfl))
    · rw [inContext]
      exact notInTx
    · simp only [joinInFlight, notDeferred, Assoc.find_insert, if_true, Option.some.injEq] at listed
      rw [← listed]
      exact ⟨rfl, publication, inContext⟩
    · simp [differ]

end

end YdbSdk.Topic.WriteSession
