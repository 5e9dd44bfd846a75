import YdbSdk.Topic.WriteSession.TxSignals

namespace YdbSdk.Topic.WriteSession

open YdbSdk.Control YdbSdk.Data List

/-! # When the precommit future of a transaction is resolved

Over every run, what the precommit callback gave to a transaction is resolved with
success exactly when the commit was called and all messages of the transaction were
acknowledged before the session aborted.
-/

variable {env : Environment} {event : Event} {start state : State} {p q : Point} {index : Nat}
  {info : TransactionInfo} {settled : Nat → Option Status}

/-- The events a run may contain: flushes where compression cannot throw too early;
writes whose number tells them apart from the messages that are not acknowledged; and
writes in a transaction only while the session runs and is not aborted by the flush
that a change of context makes. -/
structure AccountableEvent (env : Environment) (state : State) (event : Event) : Prop where
  quiet : FlushesOnlyQuietly env state event
  distinct : ∀ now message given, event = .write now message → message.seqNo = some given →
    state.Admits given message.writeContext
  running : ∀ now message, event = .write now message → message.tx.isSome = true →
    state.aborting = false ∧
      (state.changesContext message = false ∨ ∀ request, env.tokenUpdateFails request = false)

structure Accounted (settled : Nat → Option Status) (p : Point) : Prop where
  tallied : Tallied p
  tracked : Tracked settled p.state p.state.acked.length p.state.registry

structure Entering (event : Event) (p : Point) : Prop where
  distinct : p.opening = true → ∀ now message given, event = .write now message →
    message.seqNo = some given → p.state.Admits given message.writeContext
  running : p.opening = true → ∀ now message, event = .write now message →
    message.tx.isSome = true → p.state.aborting = false

theorem Entering.move (entering : Entering event p) (accountable : AccountableEvent env start event)
    (moved : Move env event start p q) : Entering event q := by
  cases moved with
  | expires running fails changes =>
    refine { entering with running := fun opening now message written inTx => ?_ }
    -- Only the flush that a change of context makes may abort the session here.
    have changed := changes opening
    rcases (accountable.running now message written inTx).2 with same | reliable
    · rw [written] at changed
      exact absurd (same.symm.trans changed) nofun
    · exact absurd (fails.symm.trans (reliable _)) nofun
  | aborts | quits | numbers | accepts => exact ⟨nofun, nofun⟩
  | subscribes _ _ opening => exact ⟨fun _ => entering.distinct opening, fun _ => entering.running opening⟩
  | acknowledges =>
    refine { entering with distinct := fun opening now message given written numbered => ?_ }
    intro place earlier late
    refine entering.distinct opening now message given written numbered place earlier ?_
    rw [length_append] at late
    exact Nat.le_of_add_right_le late
  | _ => exact { entering with }

theorem Accounted.admits (accounted : Accounted settled p) (entering : Entering event p)
    (opening : p.opening = true) {id : Nat}
    (written : event = .write now message)
    (numbered : NumberTaken p.state.autoSeqNoMode p.state.nextId message.seqNo id) :
    p.state.Admits id message.writeContext := by
  rcases numbered with ⟨given, _⟩ | ⟨_, rfl, automatic⟩
  · exact entering.distinct opening now message id written given
  · intro place earlier _ found same
    exact absurd same (accounted.tallied.automatic_new automatic (mem_of_getElem? found))

theorem Accounted.move (accounted : Accounted settled p) (entering : Entering event p)
    (moved : Move env event start p q) : Accounted settled q := by
  have tracked := accounted.tracked
  refine ⟨accounted.tallied.move moved, ?_⟩
  cases moved with
  | expires running | aborts running => exact { tracked.abort running _ with }
  | @subscribes _ message tx _ _ _ written inTx opening opens found unsubscribed =>
    have running := entering.running opening _ message written (by rw [inTx]; rfl)
    exact { tracked.subscribe running opens found unsubscribed tx.changesAreAccepted with }
  | @accepts now message id _ _ written opening idle numbered subscribed registers =>
    have ready (txId : TransactionId) (isTx : message.writeContext = .transaction txId) :
        p.state.aborting = false ∧ ∃ index, p.state.txs.find txId = some index := by
      obtain ⟨⟨tx, inTx⟩, named⟩ := subscribed txId isTx
      exact ⟨entering.running opening now message written (by rw [inTx]; rfl), named⟩
    exact { tracked.register (message.toMessage now id).toRecord rfl
      (accounted.admits entering opening written numbered) ready registers with }
  | @acknowledges _ firstId _ signalled released _ _ _ _ _ _ signals ids split =>
    have positive := accounted.tallied.sentCounted.acked_pos firstId
    rw [Nat.max_eq_right positive] at ids
    have front := accounted.tallied.released_prefix ids split
    have length := congrArg List.length ids
    rw [length_map] at length
    have counted := (tracked.signalAll signals front).release
      (released.map OriginalMessage.toMessageRecord) front (by rw [length_map, length])
    rw [← Nat.max_eq_right positive] at counted
    exact { counted with }
  | commits found added first =>
    exact { tracked with accounts := tracked.accounts.commit found added first }
  | _ => exact { tracked with }

theorem Accounted.thrown {after : State} (accounted : Accounted settled p) (cleared : p.flushing = false)
    (throws : Throws env event start p after) : Accounted settled { state := after } := by
  have tracked := accounted.tracked
  refine ⟨accounted.tallied.thrown cleared throws, ?_⟩
  cases throws with
  | called _ found added first complete resolved =>
    exact absurd (tracked.accounts.unresolved_of_complete found added first complete) resolved
  | _ => exact { tracked with }

theorem accounted_carries (accounted : Accounted settled { state := start })
    (accountable : AccountableEvent env start event) :
    Carries env event start (fun p => Accounted settled p ∧ Entering event p)
      (fun state => Accounted settled { state }) where
  enters := ⟨⟨{ accounted.tallied with }, accounted.tracked⟩, fun _ => accountable.distinct,
    fun _ now message written inTx => (accountable.running now message written inTx).1⟩
  moves := fun _ moved both => ⟨both.1.move both.2 moved, both.2.move accountable moved⟩
  leaves := And.left
  thrown := fun reached both throws =>
    both.1.thrown (throws.not_flushing reached accountable.quiet) throws
  fails := fun _ _ => trivial

theorem accounted_of_reachable
    (reached : Reachable (react env) (AccountableEvent env) start state) (sound : start.Sound)
    (accounted : Accounted settled { state := start }) :
    state.Sound ∧ Accounted settled { state } :=
  reached.invariant ⟨sound, accounted⟩ fun _ _ both accountable =>
    (accounted_carries both.2 accountable).wp both.1

theorem accounted_start : Accounted (fun _ => none) { state := {} } where
  tallied := tallied_start ⟨[], [], [], [], []⟩
  tracked := ⟨rfl, nofun, Nat.le_refl 0, ⟨.nil, List.suffix_refl _, nofun, nofun, nofun⟩,
    ⟨⟨nofun, .nil⟩, nofun, nofun, nofun, nofun, nofun⟩⟩

def State.results (state : State) (index : Nat) : Option Status :=
  state.txInfos[index]?.bind TransactionInfo.precommitResult

theorem Accounted.settle (accounted : Accounted settled { state }) :
    Accounted state.results { state } where
  tallied := accounted.tallied
  tracked := {
    accounted.tracked with
    accounts := {
      __ := accounted.tracked.accounts
      settles := fun given => Option.bind_eq_some_iff.mp given } }

def State.AllAcked (state : State) (index : Nat) : Prop :=
  ∀ place message, state.accepted[place]? = some message → message.txInfo = some index →
    place < state.acked.length

/-- The session aborted while a message of the transaction object was not
acknowledged. -/
def State.AbortedFirst (state : State) (index : Nat) : Prop :=
  ∃ base place message, state.ackedAtAbort = some base ∧ base ≤ place ∧
    state.accepted[place]? = some message ∧ message.txInfo = some index

theorem writtenIn_take_eq_iff {start : Nat} :
    writtenIn index messages = writtenIn index (messages.take start) ↔
      ∀ place message, messages[place]? = some message → message.txInfo = some index →
        place < start := by
  have split : writtenIn index messages =
      writtenIn index (messages.take start) + writtenIn index (messages.drop start) := by
    rw [← writtenIn_append, take_append_drop]
  have none : writtenIn index (messages.drop start) = 0 ↔
      ∀ message ∈ messages.drop start, message.txInfo ≠ some index := by
    rw [writtenIn]
    simp
  rw [split, Nat.add_eq_left, none]
  constructor
  · intro outside place message found inside
    by_contra late
    refine outside message (mem_iff_getElem?.mpr ⟨place - start, ?_⟩) inside
    rw [List.getElem?_drop, Nat.add_sub_cancel' (by omega), found]
  · intro early message member inside
    obtain ⟨offset, found⟩ := mem_iff_getElem?.mp member
    rw [List.getElem?_drop] at found
    have := early _ message found inside
    omega

theorem Phase.result_eq {aborting live : Prop} [Decidable aborting]
    (phase : Phase aborting live info) :
    info.precommitResult =
      if info.commitCalled then if info.writeCount = info.ackCount then some .success
        else if aborting then some .sessionExpired else none else none := by
  cases called : info.commitCalled with
  | false => simp [TransactionInfo.precommitResult, phase.unawaited called]
  | true =>
    cases phase with
    | waiting running _ _ unresolved awaited missing =>
      simp [TransactionInfo.precommitResult, awaited, called, unresolved, missing called, running]
    | committed _ complete resolved awaited =>
      simp [TransactionInfo.precommitResult, complete, resolved, awaited]
    | expired aborted _ missing resolved awaited =>
      rw [called] at awaited
      rcases awaited with awaited | awaited <;>
        simp [TransactionInfo.precommitResult, awaited, resolved, missing, aborted]
    | idle _ _ _ uncalled => rw [called] at uncalled; contradiction

section

variable {txs : Assoc TransactionId Nat} {aborted : Bool} (counted : Counted state.accepted
  (state.accepted.take (state.ackedAtAbort.getD state.acked.length)) aborted txs index info)
  (tracked : Tracked settled state state.acked.length state.registry)

include counted tracked

theorem Counted.complete_iff :
    info.writeCount = info.ackCount ↔ state.AllAcked index ∧ ¬state.AbortedFirst index := by
  rw [counted.writes, counted.acks, writtenIn_take_eq_iff]
  cases stopped : state.ackedAtAbort with
  | none => simp [State.AllAcked, State.AbortedFirst, stopped]
  | some base =>
    have before := tracked.frozen stopped
    simp only [State.AbortedFirst, stopped, Option.some.injEq]
    constructor
    · intro early
      refine ⟨fun place message found inside =>
        Nat.lt_of_lt_of_le (early place message found inside) before, ?_⟩
      rintro ⟨_, place, message, rfl, late, found, inside⟩
      exact Nat.not_lt_of_le late (early place message found inside)
    · rintro ⟨_, inTime⟩ place message found inside
      by_contra late
      exact inTime ⟨base, place, message, rfl, Nat.le_of_not_lt late, found, inside⟩

theorem Counted.missing_iff :
    info.writeCount ≠ info.ackCount ∧ state.aborting = true ↔ state.AbortedFirst index := by
  rw [← tracked.aborts]
  cases stopped : state.ackedAtAbort with
  | none => simp [State.AbortedFirst, stopped]
  | some base =>
    rw [counted.writes, counted.acks, Ne, writtenIn_take_eq_iff]
    simp only [State.AbortedFirst]
    grind

end

/-- The events that resolve promises and have no other reason to throw. -/
def Event.resolves : Event → Bool
  | .precommit _ | .serverMessage _ (.writeResponse _) | .closeTimedOut | .tokenUpdateFailed => true
  | _ => false

theorem react_silent (env : Environment) (resolves : event.resolves = true) (sound : state.Sound)
    (accounted : Accounted settled { state }) :
    (react env event).wp ⟨fun _ _ => True, fun _ _ => False, fun _ => True⟩ state := by
  have silent : event.mayThrow = false ∧ event.mayFlush = false ∧
      ∀ now message, event ≠ .write now message := by
    cases event with
    | serverMessage generation message =>
      cases message with
      | initResponse => contradiction
      | writeResponse => exact ⟨rfl, rfl, nofun⟩
    | precommit | closeTimedOut | tokenUpdateFailed => exact ⟨rfl, rfl, nofun⟩
    | _ => contradiction
  have accountable : AccountableEvent env state event :=
    ⟨fun flushes => absurd (silent.2.1.symm.trans flushes) nofun,
      fun now message _ written => absurd written (silent.2.2 now message),
      fun now message written => absurd written (silent.2.2 now message)⟩
  refine Code.wp_mono (react_walk event sound) (fun _ _ _ => trivial) ?_
  rintro _ _ ⟨p, reached, throws⟩
  have tracked := ((accounted_carries accounted accountable).along reached).1.tracked
  cases throws with
  | refused sends | uncoded sends => exact absurd (silent.1.symm.trans sends.throws) nofun
  | rejected throws => exact absurd (silent.1.symm.trans throws) nofun
  | called _ found added first complete resolved =>
    exact resolved (tracked.accounts.unresolved_of_complete found added first complete)

/-- The precommit future of a transaction is resolved with success exactly when the
commit was called and all its messages were acknowledged, with an error exactly when
the session aborted before that, and once resolved it stays as it is. -/
theorem precommit_future_resolution (env : Environment) (state : State)
    (reached : Reaches env (AccountableEvent env) state) (index : Nat) (info : TransactionInfo)
    (found : state.txInfos[index]? = some info) (added : info.callbackAdded = true) :
    (info.precommitResult = some .success ↔
      info.commitCalled = true ∧ state.AllAcked index ∧ ¬state.AbortedFirst index) ∧
    (info.precommitResult = some .sessionExpired ↔
      info.commitCalled = true ∧ state.AbortedFirst index) ∧
    (∀ status, info.precommitResult = some status → status = .success ∨ status = .sessionExpired) ∧
    (∀ status later, info.precommitResult = some status →
      Reachable (react env) (AccountableEvent env) state later →
      ∃ same, later.txInfos[index]? = some same ∧ same.precommitResult = some status) ∧
    (∀ event exception after, event.resolves = true →
      react env event state ≠ .thrown exception after) := by
  obtain ⟨sound, accounted⟩ := accounted_of_reachable reached sound_start accounted_start
  have accounts := accounted.tracked.accounts
  have counted := accounts.counted found (accounts.subscribed_of_added found added)
  have complete := counted.complete_iff accounted.tracked
  have result := counted.phase.result_eq
  have missing := counted.missing_iff accounted.tracked
  refine ⟨?_, ?_, ?_, ?_, ?_⟩
  · grind
  · grind
  · grind
  · intro status later given further
    have settled : state.results index = some status := by simp [State.results, found, given]
    exact (accounted_of_reachable further sound accounted.settle).2.tracked.accounts.settles settled
  · intro event exception after resolves thrown
    have silent := react_silent env resolves sound accounted
    rw [Code.wp, thrown] at silent
    exact silent

/-- Writes in a transaction while the session runs, without numbers of the user. -/
def accountableCheck (state : State) : Event → Bool
  | .write _ message => message.seqNo.isNone && !state.aborting
  | _ => true

theorem accountable_of_check (passed : accountableCheck state event = true) :
    AccountableEvent asynchronousSession state event where
  quiet := fun _ => .inl rfl
  distinct := by
    rintro now message given rfl numbered
    simp [accountableCheck, numbered] at passed
  running := by
    rintro now message rfl _
    have passed : message.seqNo = none ∧ state.aborting = false := by
      simpa [accountableCheck] using passed
    exact ⟨passed.2, .inr fun _ => rfl⟩

def someTransaction : Transaction where
  id := ⟨"session", "tx"⟩

/-- Two messages of a transaction; the commit comes between their acknowledgements. -/
def commitEvents : List Event :=
  [.connect false true, .serverMessage 1 (.initResponse { lastSeqNo := 0 }),
    .write 1 { data := [1], tx := some someTransaction },
    .write 2 { data := [2], tx := some someTransaction }, .compressed 1, .compressed 0,
    .scheduledSend, .serverMessage 1 (.writeResponse [{ seqNo := 1, status := .writtenInTx }]),
    .precommit 0, .serverMessage 1 (.writeResponse [{ seqNo := 2, status := .writtenInTx }])]

theorem precommit_future_resolution_of_commit :
    ∃ state info, Reaches asynchronousSession (AccountableEvent asynchronousSession) state ∧
      state.txInfos[0]? = some info ∧ info.callbackAdded = true ∧
      info.precommitResult = some .success ∧ info.commitCalled = true ∧ state.AllAcked 0 ∧
      ¬state.AbortedFirst 0 := by
  obtain ⟨state, reached, info, found, added, succeeded⟩ : ∃ state,
      Reaches asynchronousSession (AccountableEvent asynchronousSession) state ∧
      ∃ info ∈ state.txInfos[0]?, info.callbackAdded = true ∧ info.precommitResult = some .success :=
    exists_reachable commitEvents
      ⟨permitted_of_checked (fun _ _ => accountable_of_check) (by decide +kernel), by decide +kernel⟩
  have resolution := precommit_future_resolution asynchronousSession state reached 0 info found added
  exact ⟨state, info, reached, found, added, succeeded, resolution.1.mp succeeded⟩

/-- Two messages of a transaction with one number, and both are acknowledged. -/
def repeatedNumberEvents : List Event :=
  [.connect false true, .serverMessage 1 (.initResponse { lastSeqNo := 0 }),
    .write 1 { data := [1], seqNo := some 7, tx := some someTransaction },
    .write 2 { data := [2], seqNo := some 7, tx := some someTransaction }, .compressed 0,
    .compressed 0, .scheduledSend,
    .serverMessage 1 (.writeResponse [{ seqNo := 7, status := .writtenInTx }]),
    .serverMessage 1 (.writeResponse [{ seqNo := 7, status := .writtenInTx }]), .precommit 0]

theorem repeated_number_leaves_precommit_pending :
    ∃ state info, Reaches asynchronousSession (fun _ _ => True) state ∧
      state.txInfos[0]? = some info ∧ info.callbackAdded = true ∧ info.commitCalled = true ∧
      state.AllAcked 0 ∧ ¬state.AbortedFirst 0 ∧ info.precommitResult = none := by
  obtain ⟨state, reached, acked, running, info, found, added, called, pending⟩ : ∃ state,
      Reaches asynchronousSession (fun _ _ => True) state ∧
      state.acked.length = state.accepted.length ∧ state.ackedAtAbort = none ∧
      ∃ info ∈ state.txInfos[0]?, info.callbackAdded = true ∧ info.commitCalled = true ∧
        info.precommitResult = none :=
    exists_reachable repeatedNumberEvents (by decide +kernel)
  refine ⟨state, info, reached, found, added, called, ?_, ?_, pending⟩
  · intro place message accepted _
    rw [acked]
    exact (List.getElem?_eq_some_iff.mp accepted).1
  · rintro ⟨base, _, _, stopped, _⟩
    exact absurd (running.symm.trans stopped) (by simp)

end YdbSdk.Topic.WriteSession
