import YdbSdk.Topic.DeferredPublication.Balance

namespace YdbSdk.Topic.DeferredPublication

open YdbSdk.Control YdbSdk.Data List

/-! # Waits for the acknowledgements of a deferred publication

A promise is decided when its result is known, although it may not be set yet.  The
current promise is undecided exactly while a wait is on and writes are in flight.
-/

variable {state after : State} {status : WaitStatus} {session count promise : Nat}

def State.Decided (state : State) (promise : Nat) (status : WaitStatus) : Prop :=
  (promise, status) ∈ state.completing ∨ state.promises[promise]? = some (some status)

def State.Undecided (state : State) (promise : Nat) : Prop :=
  state.promises[promise]? = some none ∧ ∀ entry ∈ state.completing, entry.1 ≠ promise

def State.WaitDecided (state : State) (wait : Wait) (status : WaitStatus) : Prop :=
  match wait.promise with
  | none => status = .success
  | some promise => state.Decided promise status

def State.SettledUpTo (state : State) (count : Nat) : Prop :=
  ∀ place write, place < count → state.writes[place]? = some write →
    write.fate ≠ .inFlight

/-- The wait was answered by a promise of the state, and only succeeds when the writes
before it are settled. -/
structure Answers (state : State) (wait : Wait) : Prop where
  early : wait.issuedAt ≤ state.writes.length
  known : ∀ promise, wait.promise = some promise → promise < state.promises.length
  succeeded : state.WaitDecided wait .success → state.SettledUpTo wait.issuedAt

/-- `isOpen` says that the current promise has no result. -/
structure Waiting (isOpen : Prop) (state : State) : Prop where
  isSealed : state.isSealed = state.waitCalled
  once : (state.completing.map Prod.fst).Nodup
  unset : ∀ entry ∈ state.completing, state.promises[entry.1]? = some none
  undecided : ∀ promise, state.Undecided promise ↔
    promise = state.allAcksReceived ∧ state.waitCalled = true ∧ isOpen
  current : state.waitCalled = true → state.allAcksReceived < state.promises.length
  answers : ∀ wait ∈ state.waits, Answers state wait

def FailsOpen (state after : State) : Prop :=
  ∀ promise, after.Decided promise .sessionExpired →
    state.Decided promise .sessionExpired ∨ after.isSealed = false

theorem State.Undecided.not_decided (undecided : state.Undecided promise) :
    ¬ state.Decided promise status := by
  intro decided
  cases decided with
  | inl pending => exact undecided.2 _ pending rfl
  | inr set => simp [undecided.1] at set

theorem Answers.later (answers : Answers state wait)
    (longer : state.writes.length ≤ after.writes.length)
    (more : state.promises.length ≤ after.promises.length)
    (decided : ∀ promise, promise < state.promises.length → after.Decided promise .success →
      state.Decided promise .success)
    (settles : ∀ count, count ≤ state.writes.length → state.SettledUpTo count →
      after.SettledUpTo count) : Answers after wait := by
  refine ⟨Nat.le_trans answers.early longer,
    fun promise given => Nat.lt_of_lt_of_le (answers.known promise given) more, fun success => ?_⟩
  refine settles _ answers.early (answers.succeeded ?_)
  unfold State.WaitDecided at success ⊢
  cases given : wait.promise with
  | none => rfl
  | some promise =>
    rw [given] at success
    exact decided promise (answers.known promise given) success

theorem Waiting.keep (waiting : Waiting wasOpen state)
    (isSealed : after.isSealed = state.isSealed) (waitCalled : after.waitCalled = state.waitCalled)
    (current : after.allAcksReceived = state.allAcksReceived)
    (promises : after.promises = state.promises) (completing : after.completing = state.completing)
    (waits : after.waits = state.waits) (same : state.waitCalled = true → (isOpen ↔ wasOpen))
    (longer : state.writes.length ≤ after.writes.length)
    (settles : ∀ count, count ≤ state.writes.length → state.SettledUpTo count →
      after.SettledUpTo count) : Waiting isOpen after ∧ FailsOpen state after := by
  have decided (promise : Nat) (status : WaitStatus) :
      after.Decided promise status ↔ state.Decided promise status := by
    simp only [State.Decided, promises, completing]
  refine ⟨⟨?_, ?_, ?_, fun promise => ?_, ?_, ?_⟩, fun promise failed => .inl ((decided _ _).mp failed)⟩
  · rw [isSealed, waitCalled, waiting.isSealed]
  · rw [completing]
    exact waiting.once
  · rw [completing, promises]
    exact waiting.unset
  · have undecided : after.Undecided promise ↔ state.Undecided promise := by
      simp only [State.Undecided, promises, completing]
    rw [undecided, waiting.undecided, current, waitCalled]
    exact and_congr_right fun _ => and_congr_right fun called => (same called).symm
  · rw [waitCalled, current, promises]
    exact waiting.current
  · intro wait member
    rw [waits] at member
    exact (waiting.answers wait member).later longer (Nat.le_of_eq (by rw [promises]))
      (fun promise _ => (decided promise _).mp) settles

theorem Waiting.decide (waiting : Waiting True state) (status : WaitStatus)
    (called : state.waitCalled = true)
    (settled : status = .success → ∀ write ∈ state.writes, write.fate ≠ .inFlight) :
    Waiting False { state with
        completing := state.completing ++ [(state.allAcksReceived, status)] } ∧
      (status = .success → ∀ promise, State.Decided { state with
          completing := state.completing ++ [(state.allAcksReceived, status)] }
            promise .sessionExpired → state.Decided promise .sessionExpired) := by
  have undecided := (waiting.undecided _).mpr ⟨rfl, called, trivial⟩
  have decided (promise : Nat) (result : WaitStatus) :
      State.Decided { state with
          completing := state.completing ++ [(state.allAcksReceived, status)] } promise result ↔
        state.Decided promise result ∨ (promise = state.allAcksReceived ∧ result = status) := by
    simp only [State.Decided, mem_append, mem_singleton, Prod.mk.injEq]
    tauto
  refine ⟨{ waiting with once := ?_, unset := ?_, undecided := ?_, answers := ?_ }, ?_⟩
  · rw [map_append, nodup_append]
    refine ⟨waiting.once, by simp, ?_⟩
    intro promise member other now same
    obtain ⟨entry, pending, rfl⟩ := mem_map.mp member
    simp only [map_cons, map_nil, mem_singleton] at now
    exact undecided.2 entry pending (same.trans now)
  · intro entry member
    rcases mem_append.mp member with earlier | now
    · exact waiting.unset entry earlier
    · rw [mem_singleton.mp now]
      exact undecided.1
  · intro promise
    refine ⟨fun remains => ?_, fun impossible => impossible.2.2.elim⟩
    have before : state.Undecided promise :=
      ⟨remains.1, fun entry member => remains.2 entry (mem_append_left _ member)⟩
    exact absurd ((waiting.undecided promise).mp before).1.symm
      (remains.2 _ (mem_append_right _ (mem_singleton_self _)))
  · intro wait member
    have answers := waiting.answers wait member
    by_cases success : status = .success
    · exact { answers with
        succeeded := fun _ _ write _ found => settled success write (mem_of_getElem? found) }
    · exact answers.later (Nat.le_refl _) (Nat.le_refl _)
        (fun promise _ now => ((decided promise _).mp now).resolve_right fun is => success is.2.symm)
        (fun _ _ => id)
  · rintro rfl promise failed
    exact ((decided promise _).mp failed).resolve_right fun is => by cases is.2

theorem Waiting.reopen (waiting : Waiting False state) :
    Waiting isOpen { state with isSealed := false, waitCalled := false } where
  isSealed := rfl
  once := waiting.once
  unset := waiting.unset
  undecided promise := by
    refine ⟨fun undecided => ?_, fun impossible => by simp at impossible⟩
    exact ((waiting.undecided promise).mp undecided).2.2.elim
  current := by simp
  answers wait member := { waiting.answers wait member with }

theorem getElem?_acknowledgeFirst {place : Nat} {write : Write}
    (found : (acknowledgeFirst session seqNo writes)[place]? = some write)
    (waiting : write.fate = .inFlight) : writes[place]? = some write := by
  induction writes generalizing place with
  | nil => simp [acknowledgeFirst] at found
  | cons first rest ih =>
    rw [acknowledgeFirst] at found
    split at found
    · cases place with
      | zero =>
        simp only [List.getElem?_cons_zero, Option.some.injEq] at found
        rw [← found] at waiting
        cases waiting
      | succ place => exact found
    · cases place with
      | zero => exact found
      | succ place => exact ih found

theorem length_acknowledgeFirst (session seqNo : Nat) (writes : List Write) :
    (acknowledgeFirst session seqNo writes).length = writes.length := by
  induction writes with
  | nil => rfl
  | cons first rest ih =>
    rw [acknowledgeFirst]
    split
    · rfl
    · rw [length_cons, ih, length_cons]

theorem State.SettledUpTo.acknowledge {seqNo : Nat} (settled : state.SettledUpTo count)
    (writes : after.writes = acknowledgeFirst session seqNo state.writes) :
    after.SettledUpTo count := by
  intro place write early found waiting
  rw [writes] at found
  exact settled place write early (getElem?_acknowledgeFirst found waiting) waiting

theorem State.SettledUpTo.abort (settled : state.SettledUpTo count)
    (writes : after.writes = state.writes.map (.dropped session)) :
    after.SettledUpTo count := by
  intro place write early found waiting
  rw [writes, List.getElem?_map, Option.map_eq_some_iff] at found
  obtain ⟨original, there, result⟩ := found
  by_cases here : original.session = session ∧ original.fate = .inFlight
  · rw [Write.dropped, if_pos here] at result
    rw [← result] at waiting
    cases waiting
  · rw [Write.dropped, if_neg here] at result
    exact settled place original early there (result ▸ waiting)

theorem State.SettledUpTo.append (settled : state.SettledUpTo count)
    (inside : count ≤ state.writes.length) (writes : after.writes = state.writes ++ more) :
    after.SettledUpTo count := by
  intro place write early found
  rw [writes, List.getElem?_append_left (Nat.lt_of_lt_of_le early inside)] at found
  exact settled place write early found

theorem Waiting.answer (waiting : Waiting isOpen state) (wait : Wait)
    (answers : Answers state wait) :
    Waiting isOpen { state with waits := state.waits ++ [wait] } :=
  { waiting with
    answers := forall_mem_append.mpr ⟨fun other member => { waiting.answers other member with },
      forall_mem_singleton.mpr { answers with }⟩ }

theorem Waiting.renew (waiting : Waiting isOpen state)
    (decided : ∀ promise, ¬ state.Undecided promise) :
    Waiting True { state with
        isSealed := true, waitCalled := true, allAcksReceived := state.promises.length
        promises := state.promises ++ [none] } ∧
      FailsOpen state { state with
        isSealed := true, waitCalled := true, allAcksReceived := state.promises.length
        promises := state.promises ++ [none] } := by
  have inside {entry : Nat × WaitStatus} (pending : entry ∈ state.completing) :
      entry.1 < state.promises.length :=
    (List.getElem?_eq_some_iff.mp (waiting.unset entry pending)).1
  have value (promise : Nat) : (state.promises ++ [none])[promise]? =
      if promise = state.promises.length then some none else state.promises[promise]? := by
    rcases Nat.lt_trichotomy promise state.promises.length with early | rfl | late
    · rw [List.getElem?_append_left early, if_neg (Nat.ne_of_lt early)]
    · simp
    · simp [Nat.ne_of_gt late, Nat.le_of_lt late]
      omega
  have same {promise : Nat} (old : promise < state.promises.length) {status : WaitStatus}
      (now : State.Decided { state with
        isSealed := true, waitCalled := true, allAcksReceived := state.promises.length
        promises := state.promises ++ [none] } promise status) : state.Decided promise status := by
    rw [State.Decided, value, if_neg (Nat.ne_of_lt old)] at now
    exact now
  refine ⟨⟨rfl, waiting.once, fun entry pending => ?_, fun promise => ?_, fun _ => by simp,
    fun wait member => ?_⟩, fun promise failed => .inl ?_⟩
  · rw [value, if_neg (Nat.ne_of_lt (inside pending))]
    exact waiting.unset entry pending
  · rw [State.Undecided, value]
    by_cases here : promise = state.promises.length
    · simp only [here, if_true, true_and, iff_true]
      exact fun entry pending => Nat.ne_of_lt (inside pending)
    · simp only [here, false_and, iff_false]
      exact decided promise
  · exact (waiting.answers wait member).later (Nat.le_refl _) (by simp)
      (fun _ old now => same old now) (fun _ _ => id)
  · refine same ?_ failed
    rcases failed with pending | set
    · exact inside pending
    · simp only [value] at set
      split at set
      · contradiction
      · exact (List.getElem?_eq_some_iff.mp set).1

end YdbSdk.Topic.DeferredPublication
