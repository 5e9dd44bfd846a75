import YdbSdk.Topic.WriteSession.DeferredCredit

namespace YdbSdk.Topic.WriteSession

open YdbSdk.Control YdbSdk.Data List

/-! # Deferred publications over whole runs

While the user does not give one number to unacknowledged messages of different
publications, every acknowledgement is counted for the publication of its message, and
an abort gives back to each publication what it has not got acknowledged.
-/

/-- The counters of the publications are right.  If the session has aborted, it did so
after `kept` acknowledgements, and the messages between `kept` and `resumed` were given
back. -/
structure Credits (shared : Assoc Nat AckState) (kept resumed : Nat) (state : State) : Prop where
  atAbort : state.ackedAtAbort = if state.aborting then some kept else none
  running : state.aborting = false → kept = 0 ∧ resumed = 0
  ordered : kept ≤ resumed
  keptAcked : kept ≤ state.acked.length
  resumedWithin : resumed ≤ state.accepted.length
  within : state.acked.length ≤ state.accepted.length
  credited : Credited shared ((entriesOf kept resumed state.accepted).take state.acked.length)
    ((entriesOf kept resumed state.accepted).drop state.acked.length) state.writtenInDeferred
    state.ackStates

/-- Which messages an abort gives back is limited by `allowed`. -/
structure Crediting (shared : Assoc Nat AckState) (allowed : Nat → Nat → Prop) (p : Point) :
    Prop where
  tallied : Tallied p
  credits : ∃ kept resumed, Credits shared kept resumed p.state ∧
    (p.state.aborting = true → allowed kept resumed)
  ahead : p.state.aborting = false →
    ∀ kept resumed, p.state.accepted.length ≤ resumed → allowed kept resumed

section

variable {env : Environment} {shared : Assoc Nat AckState} {allowed : Nat → Nat → Prop}
  {kept resumed id : Nat} {event : Event} {start state : State} {p q : Point}
  {registry : Registry}

section

variable (credits : Credits shared kept resumed state)
include credits

theorem Credits.abort (runs : state.aborting = false)
    {ackStates : Assoc Nat AckState} (given : ∀ ackState, (ackStates.find ackState).getD {} =
      (state.counters ackState).giveBack (unackedOf ackState state.writtenInDeferred)) :
    Credits shared state.acked.length state.accepted.length (state.aborted ackStates) := by
  obtain ⟨rfl, rfl⟩ := credits.running runs
  have ⟨front, back⟩ := entriesOf_aborted state.accepted state.acked.length
  have aborted := credits.credited.abort given
  rw [← front, ← back] at aborted
  exact ⟨rfl, nofun, credits.within, Nat.le_refl _, Nat.le_refl _, credits.within, aborted⟩

/-- The number tells a message of this context from the messages of other publications
that are not acknowledged; after an abort from all messages that are not. -/
def State.Tells (state : State) (id : Nat) (context : WriteContext) : Prop :=
  ∀ place earlier, state.acked.length ≤ place → state.accepted[place]? = some earlier →
    earlier.record.id = id → earlier.publication = context.publication ∧
      (context.publication = none ∨ state.aborting = false)

theorem Credits.tells (tells : state.Tells id context) :
    ∀ entry ∈ (entriesOf kept resumed state.accepted).drop state.acked.length,
      entry.1 = id → entry.2 = context.publication := by
  intro entry member named
  obtain ⟨later, message, beyond, found, same, owner⟩ := mem_entriesOf_drop member
  obtain ⟨published, unowned⟩ := tells later message beyond found (same.symm.trans named)
  rcases owner with owner | ⟨owner, given⟩
  · rw [owner, published]
  · rcases unowned with unowned | running
    · rw [owner, unowned]
    · rw [(credits.running running).2] at given
      contradiction

theorem Credits.accept (record : MessageRecord) (tells : state.Tells record.id record.writeContext)
    (registers : Registers record.id state.registry record.writeContext txInfo registry) :
    Credits shared kept resumed { state with
      accepted := state.accepted ++ [{ record, txInfo }]
      writtenInDeferred := registry.writtenInDeferred, ackStates := registry.ackStates } := by
  have inside : state.acked.length ≤ (entriesOf kept resumed state.accepted).length := by
    simpa [entriesOf] using credits.within
  have accepts := credits.credited.accept (credits.tells tells) registers
  rw [← drop_append_of_le_length inside] at accepts
  refine ⟨credits.atAbort, credits.running, credits.ordered, credits.keptAcked, ?_, ?_, ?_⟩
  · exact Nat.le_trans credits.resumedWithin (by simp)
  · exact Nat.le_trans credits.within (by simp)
  · rw [entriesOf_append credits.resumedWithin, take_append_of_le_length inside]
    exact accepts

theorem Credits.acknowledge {numbers : List Nat}
    (signals : SignalledAll numbers state.registry registry)
    (front : numbers <+: state.numbersFrom state.acked.length) (released : List MessageRecord)
    (length : released.length = numbers.length) :
    Credits shared kept resumed { state with
      acked := state.acked ++ released
      writtenInDeferred := registry.writtenInDeferred, ackStates := registry.ackStates } := by
  have within := front.length_le
  simp only [State.numbersFrom, length_map, length_drop] at within
  have named : state.numbersFrom state.acked.length =
      ((entriesOf kept resumed state.accepted).drop state.acked.length).map Prod.fst := by
    rw [map_drop, entriesOf_numbers, State.numbersFrom, map_drop]
  rw [named] at front
  have credited := credits.credited.signalAll signals front
  have together : (state.acked ++ released).length = state.acked.length + numbers.length := by
    rw [length_append, length]
  rw [← take_add, drop_drop, ← together] at credited
  have keptAcked := credits.keptAcked
  have ackedWithin := credits.within
  exact ⟨credits.atAbort, credits.running, credits.ordered, by simp only; omega,
    credits.resumedWithin, by simp only; omega, credited⟩

end

/-- The number of a new message tells it from the messages that are not acknowledged,
also after the flush that a change of context makes. -/
def State.TellsThroughFlush (env : Environment) (state : State) (id : Nat) (message : WriteMessage) :
    Prop :=
  ∀ place earlier, state.acked.length ≤ place → state.accepted[place]? = some earlier →
    earlier.record.id = id →
      earlier.publication = message.writeContext.publication ∧
      (message.writeContext.publication = none ∨ state.aborting = false ∧
        (state.changesContext message = false ∨ ∀ request, env.tokenUpdateFails request = false))

/-- Flushes happen only where compression cannot throw before the batch is cleared, and
a SeqNo the user gives differs from the SeqNos of the unacknowledged messages written
elsewhere. -/
structure CreditableEvent (env : Environment) (state : State) (event : Event) : Prop where
  quiet : FlushesOnlyQuietly env state event
  tells : ∀ now message given, event = .write now message → message.seqNo = some given →
    state.TellsThroughFlush env given message

def Telling (env : Environment) (event : Event) (start : State) (p : Point) : Prop :=
  p.opening = true → ∀ now message given, event = .write now message →
    message.seqNo = some given → ∀ place earlier, p.state.acked.length ≤ place →
    p.state.accepted[place]? = some earlier → earlier.record.id = given →
      earlier.publication = message.writeContext.publication ∧
      (message.writeContext.publication = none ∨ p.state.aborting = false ∧
        (start.changesContext message = false ∨ ∀ request, env.tokenUpdateFails request = false))

theorem Telling.move (telling : Telling env event start p) (moved : Move env event start p q) :
    Telling env event start q := by
  cases moved with
  | expires running fails changes =>
    intro opening now message given written numbered place earlier unacked found same
    obtain ⟨owner, outside | ⟨_, quiet⟩⟩ :=
      telling opening now message given written numbered place earlier unacked found same
    · exact ⟨owner, .inl outside⟩
    · -- Only the flush that a change of context makes may abort the session here.
      have changed := changes opening
      rw [written] at changed
      rcases quiet with unchanged | reliable
      · exact absurd (unchanged.symm.trans changed) nofun
      · exact absurd (fails.symm.trans (reliable _)) nofun
  | aborts | quits | numbers | accepts => exact nofun
  | subscribes _ _ opening => exact fun _ => telling opening
  | acknowledges =>
    intro opening now message given written numbered place earlier late
    rw [length_append] at late
    exact telling opening now message given written numbered place earlier
      (Nat.le_of_add_right_le late)
  | _ => exact telling

theorem Crediting.tells (crediting : Crediting shared allowed p) (telling : Telling env event start p)
    (opening : p.opening = true)
    (written : event = .write now message)
    (numbered : NumberTaken p.state.autoSeqNoMode p.state.nextId message.seqNo id) :
    p.state.Tells id message.writeContext := by
  intro place earlier unacked found same
  rcases numbered with ⟨given, _⟩ | ⟨_, rfl, automatic⟩
  · obtain ⟨owner, outside | ⟨running, _⟩⟩ :=
      telling opening now message id written given place earlier unacked found same
    · exact ⟨owner, .inl outside⟩
    · exact ⟨owner, .inr running⟩
  · exact absurd same (crediting.tallied.automatic_new automatic (mem_of_getElem? found))

theorem Crediting.move (crediting : Crediting shared allowed p) (telling : Telling env event start p)
    (moved : Move env event start p q) : Crediting shared allowed q := by
  have tallied := crediting.tallied
  obtain ⟨kept, resumed, credits, within⟩ := crediting.credits
  refine ⟨tallied.move moved, ?_, ?_⟩
  · cases moved with
    | expires running _ _ given | aborts running _ given =>
      exact ⟨_, _, { credits.abort running given with },
        fun _ => crediting.ahead running _ _ (Nat.le_refl _)⟩
    | subscribes _ _ _ opens =>
      obtain ⟨written, ackStates⟩ := opens.deferred
      have credited := credits.credited
      rw [← show _ = p.state.writtenInDeferred from written,
        ← show _ = p.state.ackStates from ackStates] at credited
      exact ⟨kept, resumed, { credits with credited }, within⟩
    | @accepts now message id _ _ written opening idle numbered _ registers =>
      have accepts := credits.accept (message.toMessage now id).toRecord
        (crediting.tells telling opening written numbered) registers
      exact ⟨kept, resumed, { accepts with }, within⟩
    | @acknowledges _ firstId _ signalled released _ _ _ _ _ _ signals ids split =>
      rw [Nat.max_eq_right (tallied.sentCounted.acked_pos firstId)] at ids
      have front := tallied.released_prefix ids split
      have length := congrArg List.length ids
      rw [length_map] at length
      have acknowledged := credits.acknowledge signals front
        (released.map OriginalMessage.toMessageRecord) (by rw [length_map, length])
      exact ⟨kept, resumed, { acknowledged with }, within⟩
    | _ => exact ⟨kept, resumed, { credits with }, within⟩
  · cases moved with
    | expires | aborts => exact nofun
    | accepts =>
      intro running kept resumed beyond
      rw [length_append] at beyond
      exact crediting.ahead running kept resumed (Nat.le_of_add_right_le beyond)
    | _ => exact crediting.ahead

theorem Crediting.thrown {after : State} (crediting : Crediting shared allowed p)
    (cleared : p.flushing = false) (throws : Throws env event start p after) :
    Crediting shared allowed { state := after } := by
  obtain ⟨kept, resumed, credits, within⟩ := crediting.credits
  refine ⟨crediting.tallied.thrown cleared throws, ?_, ?_⟩
  · cases throws <;> exact ⟨kept, resumed, { credits with }, within⟩
  · cases throws <;> exact crediting.ahead

theorem crediting_carries (crediting : Crediting shared allowed { state := start })
    (creditable : CreditableEvent env start event) :
    Carries env event start (fun p => Crediting shared allowed p ∧ Telling env event start p)
      (fun state => Crediting shared allowed { state }) where
  enters := ⟨⟨{ crediting.tallied with }, crediting.credits, crediting.ahead⟩,
    fun _ => creditable.tells⟩
  moves := fun _ moved both => ⟨both.1.move both.2 moved, both.2.move moved⟩
  leaves := And.left
  thrown := fun reached both throws =>
    both.1.thrown (throws.not_flushing reached creditable.quiet) throws
  fails := fun _ _ => trivial

theorem crediting_of_reachable
    (reached : Reachable (react env) (CreditableEvent env) start state) (sound : start.Sound)
    (crediting : Crediting shared allowed { state := start }) :
    state.Sound ∧ Crediting shared allowed { state } :=
  reached.invariant ⟨sound, crediting⟩ fun _ _ both creditable =>
    (crediting_carries both.2 creditable).wp both.1

theorem crediting_start :
    Crediting shared (fun _ _ => True) { state := { ackStates := shared } } where
  tallied := tallied_start ⟨[], [], [], [], shared⟩
  credits := ⟨0, 0, ⟨rfl, fun _ => ⟨rfl, rfl⟩, Nat.le_refl 0, Nat.le_refl 0, Nat.le_refl 0,
    Nat.le_refl 0, ⟨by simp [entriesOf], fun _ => rfl, .nil, fun _ => rfl, fun _ => rfl,
      fun _ => rfl⟩⟩, fun _ => trivial⟩
  ahead := fun _ _ _ _ => trivial

/-- The counters of each publication are those of its own messages.  The first `kept`
messages were acknowledged before an abort, which gave back the messages from there up to
`resumed`. -/
def State.CountsOwn (shared : Assoc Nat AckState) (kept resumed : Nat) (state : State) : Prop :=
  ∀ ackState,
    (state.counters ackState).writeCount = ((shared.find ackState).getD {}).writeCount +
      publishedIn ackState (state.accepted.take kept) +
        publishedIn ackState (state.accepted.drop resumed) ∧
    (state.counters ackState).ackCount = ((shared.find ackState).getD {}).ackCount +
      publishedIn ackState (state.accepted.take kept) +
        publishedIn ackState ((state.accepted.take state.acked.length).drop resumed)

theorem Credits.countsOwn (credits : Credits shared kept resumed state) :
    state.CountsOwn shared kept resumed := by
  intro ackState
  have writes := credits.credited.writes ackState
  have acks := credits.credited.acks ackState
  rw [take_append_drop, ownedBy_entriesOf credits.ordered, ← Nat.add_assoc] at writes
  rw [entriesOf_take, ownedBy_entriesOf credits.ordered, take_take,
    Nat.min_eq_left credits.keptAcked, ← Nat.add_assoc] at acks
  exact ⟨writes, acks⟩

end

/-- While the session runs, each acknowledgement is counted for the publication of its
message.  An abort gives back to each publication its own writes that were not
acknowledged then, and nothing that happens later changes that. -/
theorem deferred_writes_credited (env : Environment) (shared : Assoc Nat AckState) (state : State)
    (reached : Reachable (react env) (CreditableEvent env) { ackStates := shared } state)
    (running : state.aborting = false) :
    state.CountsOwn shared 0 0 ∧
      ∀ event first, CreditableEvent env state event → (react env event).step state = .ok first →
        first.aborting = true →
          ∃ kept resumed, first.ackedAtAbort = some kept ∧ state.accepted.length ≤ resumed ∧
            resumed ≤ first.accepted.length ∧
            ∀ later, Reachable (react env) (CreditableEvent env) first later →
              later.CountsOwn shared kept resumed := by
  obtain ⟨sound, crediting⟩ := crediting_of_reachable reached ⟨⟨nofun, .nil⟩, .inr rfl, rfl⟩
    crediting_start
  obtain ⟨kept, resumed, credits, _⟩ := crediting.credits
  obtain ⟨rfl, rfl⟩ := credits.running running
  refine ⟨credits.countsOwn, ?_⟩
  intro event first creditable taken aborted
  -- Only messages that were accepted by this step can follow those given back.
  have limited : Crediting shared (fun _ resumed => state.accepted.length ≤ resumed) { state } :=
    ⟨crediting.tallied, ⟨0, 0, credits, by simp [running]⟩, fun _ _ _ beyond => beyond⟩
  obtain ⟨sound, stepped⟩ := Code.wp_step ((crediting_carries limited creditable).wp sound) taken
  obtain ⟨kept, resumed, credits, within⟩ := stepped.credits
  have atAbort := credits.atAbort
  rw [aborted] at atAbort
  refine ⟨kept, resumed, atAbort, within aborted, credits.resumedWithin, fun later onwards => ?_⟩
  have pinned : Crediting shared (fun first last => first = kept ∧ last = resumed)
      { state := first } :=
    ⟨stepped.tallied, ⟨kept, resumed, credits, fun _ => ⟨rfl, rfl⟩⟩, by simp [aborted]⟩
  obtain ⟨_, after⟩ := crediting_of_reachable onwards sound pinned
  obtain ⟨_, _, lasting, same⟩ := after.credits
  cases aborting : later.aborting with
  | false => exact absurd (after.ahead aborting (kept + 1) _ (Nat.le_refl _)).1 (by simp)
  | true =>
    obtain ⟨rfl, rfl⟩ := same aborting
    exact lasting.countsOwn

def unnumberedCheck (_ : State) : Event → Bool
  | .write _ message => message.seqNo.isNone
  | _ => true

theorem creditable_of_check
    (passed : unnumberedCheck state event = true) : CreditableEvent asynchronousSession state event where
  quiet := fun _ => .inl rfl
  tells := by
    intro now message given is numbered
    subst is
    simp [unnumberedCheck, numbered] at passed

def somePublication (ackState : Nat) : DeferredPublication where
  intPublicationId := ackState
  extPublicationId := none
  ackState := ackState

def twoPublicationsEvents : List Event :=
  [.connect false true, .serverMessage 1 (.initResponse { lastSeqNo := 0 }),
    .write 1 { data := [1], deferredPublication := some (somePublication 1) },
    .write 2 { data := [2], deferredPublication := some (somePublication 2) }, .compressed 0,
    .compressed 0, .scheduledSend,
    .serverMessage 1 (.writeResponse [{ seqNo := 1, status := .written 0 }])]

/-- The session closes with one of the messages not acknowledged. -/
theorem deferred_writes_credited_of_close :
    ∃ state first kept resumed,
      Reachable (react asynchronousSession) (CreditableEvent asynchronousSession) { ackStates := [] }
        state ∧
      (react asynchronousSession .closeTimedOut).step state = .ok first ∧
      state.aborting = false ∧ first.aborting = true ∧ state.acked.length = 1 ∧
      state.CountsOwn [] 0 0 ∧ first.CountsOwn [] kept resumed := by
  obtain ⟨state, reached, running, acked, first, taken, aborted⟩ : ∃ state,
      Reachable (react asynchronousSession) (CreditableEvent asynchronousSession) { ackStates := [] }
        state ∧ state.aborting = false ∧ state.acked.length = 1 ∧
      ∃ first, (react asynchronousSession .closeTimedOut).step state = .ok first ∧
        first.aborting = true :=
    exists_reachable twoPublicationsEvents
      ⟨permitted_of_checked (fun _ _ => creditable_of_check) (by decide +kernel), by decide +kernel⟩
  obtain ⟨counts, aborts⟩ := deferred_writes_credited asynchronousSession [] state reached running
  obtain ⟨kept, resumed, _, _, _, later⟩ :=
    aborts .closeTimedOut first (creditable_of_check rfl) taken aborted
  exact ⟨state, first, kept, resumed, reached, taken, running, aborted, acked, counts,
    later first .start⟩

/-- Messages of two publications get one number, and both are acknowledged. -/
def contestedNumberEvents : List Event :=
  [.connect false true, .serverMessage 1 (.initResponse { lastSeqNo := 0 }),
    .write 1 { data := [1], seqNo := some 7, deferredPublication := some (somePublication 1) },
    .write 2 { data := [2], seqNo := some 7, deferredPublication := some (somePublication 2) },
    .write 3 { data := [3], seqNo := some 8, deferredPublication := some (somePublication 1) },
    .compressed 0, .compressed 0, .compressed 0, .scheduledSend,
    .serverMessage 1 (.writeResponse [{ seqNo := 7, status := .written 0 }]),
    .serverMessage 1 (.writeResponse [{ seqNo := 7, status := .written 0 }])]

/-- The acknowledgement of the second message is counted for the publication of the
first. -/
theorem contested_number_credits_other_publication :
    ∃ state, Reaches asynchronousSession (FlushesOnlyQuietly asynchronousSession) state ∧
      state.aborting = false ∧
      publishedIn 1 (state.accepted.take state.acked.length) = 1 ∧
      (state.counters 1).ackCount = 2 ∧
      publishedIn 2 (state.accepted.take state.acked.length) = 1 ∧
      (state.counters 2).ackCount = 0 :=
  exists_reachable contestedNumberEvents ⟨permitted_of_always fun _ _ _ => .inl rfl, by decide +kernel⟩

end YdbSdk.Topic.WriteSession
