import YdbSdk.Topic.DeferredPublication.Waits

namespace YdbSdk.Topic.DeferredPublication

open YdbSdk.Control YdbSdk.Data Code List

/-! # Every wait of a deferred publication is resolved as it should be

The methods of the publication keep its counters and its promises in step, so no
assertion of theirs fails and each wait gets the result its writes call for.
-/

variable {state : State}

structure Sound (state : State) : Prop where
  balanced : Balanced state
  waiting : Waiting (state.ackCount < state.writeCount) state

/-- No assertion fails, the invariant is kept and a failed wait leaves the publication
open. -/
abbrev Keeps (code : Tracker Unit) : Prop :=
  ∀ state, Sound state →
    code.wp (.keeping (fun after => Sound after ∧ FailsOpen state after) (fun _ => False)) state

theorem Sound.unchanged (sound : Sound state) : Sound state ∧ FailsOpen state state :=
  ⟨sound, fun _ failed => .inl failed⟩

theorem Sound.of_parts {after : State} (balanced : Balanced after)
    (waits : Waiting (after.ackCount < after.writeCount) after ∧ FailsOpen state after) :
    Sound after ∧ FailsOpen state after :=
  ⟨⟨balanced, waits.1⟩, waits.2⟩

theorem abort_keeps (session : Nat) : Keeps (abort session) := by
  intro state sound
  obtain ⟨balanced, waiting⟩ := sound
  simp only [abort, onUnackedAbort, wp_rules]
  refine ⟨fun _ => Sound.unchanged ⟨balanced, waiting⟩, fun _ => ⟨fun none => ?_, fun some => ?_⟩⟩
  · -- The session has no write in flight, so nothing is dropped.
    apply Sound.of_parts
    · apply balanced.abort session
      · rw [none, Nat.sub_zero]
      · rfl
      · rfl
      · rfl
    · exact waiting.keep rfl rfl rfl rfl rfl rfl (fun _ => .rfl) (by simp)
        (fun _ _ settled => settled.abort rfl)
  · have fits : state.ackCount + (state.writtenInDeferred session).total ≤ state.writeCount := by
      rw [(balanced.counts session).total]
      exact balanced.fits session
    refine ⟨fun _ => ⟨fun called => ?_, fun notCalled => ?_⟩, fun exceeded => ?_⟩
    · have counts : True ↔ state.ackCount < state.writeCount := by simp; omega
      apply Sound.of_parts
      · apply balanced.abort session <;> rfl
      · obtain ⟨dropped, _⟩ : Waiting True { state with
              writeCount := state.writeCount - (state.writtenInDeferred session).total
              aborting := Function.update state.aborting session true
              writtenInDeferred := Function.update state.writtenInDeferred session []
              writes := state.writes.map (.dropped session) } ∧ FailsOpen state _ :=
          waiting.keep rfl rfl rfl rfl rfl rfl (fun _ => counts) (by simp)
            (fun _ _ settled => settled.abort rfl)
        exact ⟨(dropped.decide .sessionExpired called (by simp)).1.reopen, fun _ _ => .inr rfl⟩
    · apply Sound.of_parts
      · apply balanced.abort session <;> rfl
      · exact waiting.keep rfl rfl rfl rfl rfl rfl
          (fun called => absurd called (by simp [notCalled])) (by simp)
          (fun _ _ settled => settled.abort rfl)
    · simp [fits] at exceeded

theorem write_keeps (session seqNo : Nat) : Keeps (write session seqNo) := by
  intro state sound
  simp only [write, tryOnWrite, wp_rules]
  refine ⟨fun _ => ⟨fun impossible => by simp at impossible,
    fun _ => abort_keeps session state sound⟩,
    fun isOpen => ⟨fun _ => ?_, fun impossible => absurd trivial impossible⟩⟩
  obtain ⟨balanced, waiting⟩ := sound
  have notCalled : state.waitCalled = false := by
    rw [← waiting.isSealed]
    simpa using isOpen
  apply Sound.of_parts
  · apply balanced.write session seqNo <;> rfl
  · exact waiting.keep rfl rfl rfl rfl rfl rfl
      (fun called => absurd called (by simp [notCalled])) (by simp)
      (fun _ inside settled => settled.append inside rfl)

theorem write_step_of_open (isOpen : state.isSealed = false) (session seqNo : Nat) :
    ∃ after, (write session seqNo).step state = .ok after ∧
      after.writes = state.writes ++ [⟨session, seqNo, .inFlight⟩] := by
  have accepted : tryOnWrite state =
      .returned true { state with writeCount := state.writeCount + 1 } := by
    simp [tryOnWrite, Bind.bind, Code.read, Code.update, Pure.pure, isOpen]
  simp [Code.step, write, Bind.bind, accepted, Code.update]

theorem acknowledge_keeps (session seqNo : Nat) : Keeps (acknowledge session seqNo) := by
  intro state sound
  obtain ⟨balanced, waiting⟩ := sound
  simp only [acknowledge, wp_rules]
  cases found : (state.writtenInDeferred session).find seqNo with
  | none => exact Sound.unchanged ⟨balanced, waiting⟩
  | some count =>
    have counts := balanced.counts session
    have balances : ∀ after, after.writeCount = state.writeCount →
        after.ackCount = state.ackCount + 1 →
        after.writtenInDeferred = Function.update state.writtenInDeferred session
          (if count = 1 then (state.writtenInDeferred session).erase seqNo
            else (state.writtenInDeferred session).insert seqNo (count - 1)) →
        after.writes = acknowledgeFirst session seqNo state.writes → Balanced after :=
      fun _ => balanced.acknowledge found
    have fits : state.ackCount + 1 ≤ state.writeCount :=
      Nat.le_trans (Nat.add_le_add_left (length_pos_of_mem (counts.mem found)) _)
        (balanced.fits session)
    have positive := counts.positive found
    have longer := Nat.le_of_eq (length_acknowledgeFirst session seqNo state.writes).symm
    simp only [onAck, wp_rules, positive, fits,
      decide_true, Bool.and_eq_true, beq_iff_eq, forall_const, Bool.true_eq_false,
      IsEmpty.forall_iff, and_true]
    refine ⟨fun last => ?_, fun differ => ?_⟩
    · obtain ⟨equal, called⟩ := last
      apply Sound.of_parts
      · apply balances <;> rfl
      · obtain ⟨counted, _⟩ : Waiting True { state with
            ackCount := state.ackCount + 1
            writtenInDeferred := Function.update state.writtenInDeferred session
              (if count = 1 then (state.writtenInDeferred session).erase seqNo
                else (state.writtenInDeferred session).insert seqNo (count - 1))
            writes := acknowledgeFirst session seqNo state.writes } ∧ FailsOpen state _ :=
          waiting.keep rfl rfl rfl rfl rfl rfl (fun _ => iff_of_true trivial fits) longer
            (fun _ _ settled => settled.acknowledge rfl)
        obtain ⟨decided, fails⟩ := counted.decide .success called (fun _ => by
          refine Balanced.settled ?_ equal
          apply balances <;> rfl)
        refine ⟨?_, fun promise failed => .inl (fails rfl promise failed)⟩
        simpa [equal] using decided
    · apply Sound.of_parts
      · apply balances <;> rfl
      · refine waiting.keep rfl rfl rfl rfl rfl rfl (fun called => ?_) longer
          (fun _ _ settled => settled.acknowledge rfl)
        have unequal : state.writeCount ≠ state.ackCount + 1 := by
          simpa [called] using differ
        exact ⟨fun more => Nat.lt_of_succ_lt more, fun _ => Nat.lt_of_le_of_ne fits unequal.symm⟩

theorem Sound.settledAll (sound : Sound state) (equal : state.writeCount = state.ackCount) :
    state.SettledUpTo state.writes.length :=
  fun _ write _ found => sound.balanced.settled equal write (mem_of_getElem? found)

theorem waitAllAcks_keeps : Keeps waitAllAcks := by
  intro state sound
  have bound := sound.balanced.fits 0
  simp only [waitAllAcks, wp_rules, beq_iff_eq,
    Bool.and_eq_true, beq_eq_false_iff_ne]
  refine ⟨fun none => ?_, fun _ => ⟨fun waited => ?_, fun renewed => ?_⟩⟩
  · -- Nothing was written, or all of it was dropped.
    refine ⟨⟨{ sound.balanced with }, sound.waiting.answer _ ⟨Nat.le_refl _, by simp, fun _ => ?_⟩⟩,
      fun _ failed => .inl failed⟩
    exact sound.settledAll (by omega)
  · refine ⟨⟨{ sound.balanced with }, sound.waiting.answer _ ⟨Nat.le_refl _, fun promise given => ?_,
      fun success => ?_⟩⟩, fun _ failed => .inl failed⟩
    · injection given with here
      rw [← here]
      exact sound.waiting.current waited.1
    · apply sound.settledAll
      by_contra differ
      exact ((sound.waiting.undecided _).mpr ⟨rfl, waited.1, by omega⟩).not_decided success
  · have decided (promise : Nat) : ¬ state.Undecided promise := by
      intro undecided
      obtain ⟨here, called, _⟩ := (sound.waiting.undecided promise).mp undecided
      have unset := undecided.1
      rw [here] at unset
      simp [State.hasValue, called, unset] at renewed
    obtain ⟨renews, fails⟩ := sound.waiting.renew decided
    constructor
    · intro equal
      have settled := sound.balanced.settled equal
      obtain ⟨decided, failsLater⟩ := renews.decide .success rfl (fun _ => settled)
      refine ⟨⟨{ sound.balanced with }, ?_⟩,
        fun promise failed => fails promise (failsLater rfl promise failed)⟩
      have answered := decided.answer ⟨some state.promises.length, state.writes.length⟩
        ⟨Nat.le_refl _, by simp, fun _ _ write _ found =>
          settled write (mem_of_getElem? found)⟩
      simpa [equal] using answered
    · intro differ
      have counts : state.ackCount < state.writeCount := by omega
      refine ⟨⟨{ sound.balanced with }, ?_⟩, fails⟩
      have undecided := (renews.undecided _).mpr ⟨rfl, rfl, trivial⟩
      have answered := renews.answer ⟨some state.promises.length, state.writes.length⟩
        ⟨Nat.le_refl _, by simp, fun success => absurd success undecided.not_decided⟩
      simpa [counts] using answered

theorem mem_completing {completing : List (Nat × WaitStatus)} (found : completing[index]? = some entry)
    (other : Nat × WaitStatus) :
    other ∈ completing ↔ other = entry ∨ other ∈ completing.eraseIdx index := by
  obtain ⟨inside, here⟩ := List.getElem?_eq_some_iff.mp found
  rw [← (getElem_cons_eraseIdx_perm inside).mem_iff, mem_cons, here]

theorem complete_keeps (index : Nat) : Keeps (complete index) := by
  intro state sound
  obtain ⟨balanced, waiting⟩ := sound
  simp only [complete, wp_rules]
  cases found : state.completing[index]? with
  | none => exact Sound.unchanged ⟨balanced, waiting⟩
  | some entry =>
    obtain ⟨promise, status⟩ := entry
    have members := mem_completing found
    have unset : state.promises[promise]? = some none :=
      waiting.unset _ (mem_of_getElem? found)
    have values : ∀ place, (state.promises.modify promise fun value =>
        some (value.getD status))[place]? =
          if place = promise then some (some status) else state.promises[place]? := by
      intro place
      by_cases here : promise = place
      · simp [← here, unset]
      · simp [here, Ne.symm here]
    have apart : ∀ other ∈ state.completing.eraseIdx index, other.1 ≠ promise := by
      intro other member same
      obtain ⟨inside, here⟩ := List.getElem?_eq_some_iff.mp found
      have once := ((getElem_cons_eraseIdx_perm inside).map Prod.fst).nodup_iff.mpr waiting.once
      rw [map_cons, nodup_cons, here] at once
      exact once.1 (mem_map.mpr ⟨other, member, same⟩)
    have undecided (place : Nat) : State.Undecided { state with
        completing := state.completing.eraseIdx index
        promises := state.promises.modify promise fun value => some (value.getD status) } place ↔
          state.Undecided place := by
      simp only [State.Undecided, members]
      by_cases here : place = promise
      · simp [here]
      · simp [Ne.symm here]
    have decided (place : Nat) (result : WaitStatus) : State.Decided { state with
        completing := state.completing.eraseIdx index
        promises := state.promises.modify promise fun value => some (value.getD status) }
          place result ↔ state.Decided place result := by
      simp only [State.Decided, values, members]
      by_cases here : place = promise
      · rw [here, unset]
        have gone : (promise, result) ∉ state.completing.eraseIdx index :=
          fun member => apart _ member rfl
        simp [gone, eq_comm]
      · simp [here]
    refine ⟨⟨{ balanced with }, waiting.isSealed, ?_, ?_, ?_, ?_, ?_⟩, ?_⟩
    · exact waiting.once.sublist ((eraseIdx_sublist _ _).map _)
    · intro other member
      rw [values, if_neg (apart other member)]
      exact waiting.unset other ((members other).mpr (.inr member))
    · exact fun place => (undecided place).trans (waiting.undecided place)
    · simpa using waiting.current
    · exact fun wait member => (waiting.answers wait member).later (Nat.le_refl _) (by simp)
        (fun place _ => (decided place _).mp) (fun _ _ => id)
    · exact fun place failed => .inl ((decided place _).mp failed)

theorem react_keeps (event : Event) : Keeps (react event) := by
  cases event with
  | write session seqNo => exact write_keeps session seqNo
  | acknowledge session seqNo => exact acknowledge_keeps session seqNo
  | abort session => exact abort_keeps session
  | waitAllAcks => exact waitAllAcks_keeps
  | complete index => exact complete_keeps index

theorem sound_start : Sound {} := by
  refine ⟨⟨rfl, rfl, fun _ => ⟨.nil, nofun, fun _ => rfl, rfl⟩⟩, ⟨rfl, ?_, ?_, ?_, ?_, ?_⟩⟩
  · exact nodup_nil
  · exact fun _ member => by cases member
  · exact fun _ => ⟨fun undecided => absurd undecided.1 (by simp), fun called => by simp at called⟩
  · exact fun called => by cases called
  · exact fun _ member => by cases member

theorem sound_of_reaches (reached : Reaches state) : Sound state := by
  have kept : ∀ before event, Sound before → True →
      (react event).wp (.keeping Sound (fun _ => False)) before := by
    intro before event sound _
    exact wp_mono (react_keeps event before sound) (fun _ _ => And.left) (fun _ _ => And.left)
  exact reached.invariant sound_start kept

theorem react_step (sound : Sound state) (event : Event) :
    (∀ assertion, (react event).step state ≠ .error assertion) ∧
      ∀ after, (react event).step state = .ok after → FailsOpen state after := by
  have kept := react_keeps event state sound
  constructor
  · exact fun assertion failed => wp_step_error kept failed
  · exact fun after taken => (wp_step kept taken).2

theorem Sound.decided_or_open (sound : Sound state) (issued : wait ∈ state.waits) :
    (∃ status, state.WaitDecided wait status) ∨
      (state.isSealed = true ∧ state.ackCount < state.writeCount) := by
  have waiting := sound.waiting
  unfold State.WaitDecided
  cases given : wait.promise with
  | none => exact .inl ⟨.success, rfl⟩
  | some promise =>
    have inside := (waiting.answers wait issued).known promise given
    by_cases pending : ∃ status, (promise, status) ∈ state.completing
    · obtain ⟨status, pending⟩ := pending
      exact .inl ⟨status, .inl pending⟩
    · cases value : state.promises[promise] with
      | some status =>
        exact .inl ⟨status, .inr (by rw [List.getElem?_eq_getElem inside, value])⟩
      | none =>
        have undecided : state.Undecided promise := by
          refine ⟨by rw [List.getElem?_eq_getElem inside, value], fun entry member same => ?_⟩
          exact pending ⟨entry.2, same ▸ member⟩
        obtain ⟨_, called, counts⟩ := (waiting.undecided promise).mp undecided
        exact .inr ⟨by rw [waiting.isSealed, called], counts⟩

/-- Whatever the sessions and the waiting calls do, no assertion fails.  A wait has its
result unless the publication is sealed and has more writes than acknowledgements.  A wait
that succeeds has seen every write before it acknowledged or dropped by an abort.  No
promise is resolved twice, and the step that lets a wait fail makes the publication
writable. -/
theorem deferred_publication_waits {state : State} (reached : Reaches state) :
    (∀ event assertion, (react event).step state ≠ .error assertion) ∧
    (state.writeCount = state.writes.countP Write.isKept ∧
      state.ackCount = state.writes.countP Write.isAcknowledged) ∧
    (∀ wait ∈ state.waits, (∃ status, state.WaitDecided wait status) ∨
      (state.isSealed = true ∧ state.ackCount < state.writeCount)) ∧
    (∀ wait ∈ state.waits, state.WaitDecided wait .success →
      ∀ place write, place < wait.issuedAt → state.writes[place]? = some write →
        write.fate = .acknowledged ∨ write.fate = .dropped) ∧
    ((state.completing.map Prod.fst).Nodup ∧
      ∀ entry ∈ state.completing, state.promises[entry.1]? = some none) ∧
    (∀ event after promise, (react event).step state = .ok after →
      after.Decided promise .sessionExpired → ¬ state.Decided promise .sessionExpired →
      ∀ session seqNo, ∃ next, (write session seqNo).step after = .ok next ∧
        next.writes = after.writes ++ [⟨session, seqNo, .inFlight⟩]) := by
  have sound := sound_of_reaches reached
  refine ⟨fun event => (react_step sound event).1,
    ⟨sound.balanced.written, sound.balanced.acknowledged⟩,
    fun wait issued => sound.decided_or_open issued, ?_, ⟨sound.waiting.once, sound.waiting.unset⟩, ?_⟩
  · intro wait issued success place write early found
    have settled := (sound.waiting.answers wait issued).succeeded success place write early found
    cases fate : write.fate with
    | inFlight => exact absurd fate settled
    | acknowledged => exact .inl rfl
    | dropped => exact .inr rfl
  · intro event after promise taken failed unfailed session seqNo
    cases (react_step sound event).2 after taken promise failed with
    | inl before => exact absurd before unfailed
    | inr isOpen => exact write_step_of_open isOpen session seqNo

/-- One session loses a write, so the first wait fails; the second one succeeds. -/
theorem deferred_publication_waits_after_abort :
    ∃ state, state.promises = [some .sessionExpired, some .success] ∧
      (∀ event assertion, (react event).step state ≠ .error assertion) ∧
      ∀ wait ∈ state.waits, state.WaitDecided wait .success →
        ∀ place write, place < wait.issuedAt → state.writes[place]? = some write →
          write.fate = .acknowledged ∨ write.fate = .dropped := by
  obtain ⟨state, reached, promises⟩ : ∃ state, Reaches state ∧
      state.promises = [some .sessionExpired, some .success] :=
    exists_reachable [.write 0 1, .write 1 5, .write 0 1, .waitAllAcks, .acknowledge 0 1,
      .waitAllAcks, .abort 1, .complete 0, .write 0 2, .waitAllAcks, .acknowledge 0 2,
      .acknowledge 0 1, .complete 0] (by decide +kernel)
  have facts := deferred_publication_waits reached
  exact ⟨state, promises, facts.1, facts.2.2.2.1⟩

end YdbSdk.Topic.DeferredPublication
