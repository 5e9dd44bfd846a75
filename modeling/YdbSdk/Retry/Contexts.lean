import Mathlib

namespace YdbSdk.Retry

/-! # The retry contexts

`TRetryContextBase` decides what follows an attempt.  The synchronous context stores the result of
an attempt and goes on in a loop; the asynchronous one goes on in the callbacks of futures and of a
timer, one of which is pending at any time.  Results and exceptions are of any type. -/

inductive EStatus where
  | success
  | clientCancelled
  | aborted
  | overloaded
  | clientResourceExhausted
  | unavailable
  | badSession
  | sessionBusy
  | notFound
  | undetermined
  | transportUnavailable
  | clientDeadlineExceeded
  | other (code : Nat)
deriving DecidableEq

inductive NextStep where
  | retryImmediately
  | retryFastBackoff
  | retrySlowBackoff
  | finish
deriving DecidableEq

structure RetryDecision where
  step : NextStep
  resetSession : Bool := false

structure RetryOperationSettings where
  maxRetries : Nat
  retryNotFound : Bool := false
  retryUndefined : Bool := false
  idempotent : Bool := false

def getRetryDecision (status : EStatus) (settings : RetryOperationSettings) : RetryDecision :=
  match status with
  | .success | .clientCancelled => ⟨.finish, false⟩
  | .aborted => ⟨.retryImmediately, false⟩
  | .overloaded | .clientResourceExhausted => ⟨.retrySlowBackoff, false⟩
  | .unavailable => ⟨.retryFastBackoff, false⟩
  | .badSession | .sessionBusy => ⟨.retryImmediately, true⟩
  | .notFound => ⟨if settings.retryNotFound then .retryImmediately else .finish, false⟩
  | .undetermined => ⟨if settings.idempotent then .retryFastBackoff else .finish, false⟩
  | .transportUnavailable =>
    ⟨if settings.idempotent then .retryFastBackoff else .finish, settings.idempotent⟩
  | .clientDeadlineExceeded => ⟨if settings.retryUndefined then .retrySlowBackoff else .finish, true⟩
  | .other _ => ⟨if settings.retryUndefined then .retrySlowBackoff else .finish, false⟩

/-- A result made from a status has no value. -/
structure Result (ρ : Type) where
  status : EStatus
  value : Option ρ := none
deriving DecidableEq

/-- `TYdbRangeErrorException` carries a status. -/
inductive Thrown (η : Type) where
  | rangeError (status : EStatus)
  | other (error : η)

inductive Ending (ρ η : Type) where
  | result (result : Result ρ)
  | exception (error : η)
deriving DecidableEq

/-- A call throws, or its future comes to hold a value or an exception. -/
inductive Call (α η : Type) where
  | throws (error : Thrown η)
  | future (answer : Except (Thrown η) α)

inductive Action where
  | getSession
  | resetSession
  | operation
deriving DecidableEq

/-- What the contexts meet: the outcomes of the calls by their number, the stop token and the check
of the time limit by the number of the question and the time waited so far, and the back-off of a
retry number. -/
structure Environment (ρ η : Type) where
  getSession : Nat → Call EStatus η
  operation : Nat → Call (Result ρ) η
  stopRequested : Nat → Nat → Bool
  expired : Nat → Nat → Bool
  backoff : NextStep → Nat → Nat

inductive Pending (ρ η : Type) where
  | session (answer : Except (Thrown η) EStatus)
  | operation (answer : Except (Thrown η) (Result ρ))
  | timer

/-- `result` and `exception` are of the synchronous context, `pending` and `promise` of the
asynchronous one; `actions` is history. -/
structure Context (ρ η : Type) where
  retryNumber : Nat := 0
  finished : Bool := false
  session : Bool := false
  stopPolls : Nat := 0
  timeChecks : Nat := 0
  waited : Nat := 0
  actions : List Action := []
  result : Option (Result ρ) := none
  exception : Option η := none
  pending : Option (Pending ρ η) := none
  promise : Option (Ending ρ η) := none

variable {ρ η : Type}

namespace Context

def polled (context : Context ρ η) : Context ρ η := { context with stopPolls := context.stopPolls + 1 }

def checked (context : Context ρ η) : Context ρ η := { context with timeChecks := context.timeChecks + 1 }

def called (action : Action) (context : Context ρ η) : Context ρ η :=
  { context with actions := context.actions ++ [action] }

def resetSession (context : Context ρ η) : Context ρ η :=
  { context.called .resetSession with session := false }

def retried (delay : Nat) (context : Context ρ η) : Context ρ η :=
  { context with retryNumber := context.retryNumber + 1, waited := context.waited + delay }

end Context

abbrev Throwing (ρ η : Type) := Context ρ η → Context ρ η × Option (Thrown η)

/-- The hooks of a child that differ in what they do with an ending and in the index of a delay. -/
structure Child (ρ η : Type) where
  onReady : Ending ρ η → Context ρ η → Context ρ η
  delayIndex : Nat → Nat

/-! ## The base -/

section Base

variable (child : Child ρ η) (env : Environment ρ η) (settings : RetryOperationSettings)

def finish (ending : Ending ρ η) (context : Context ρ η) : Context ρ η :=
  if context.finished then context else child.onReady ending { context with finished := true }

def finishIfStopped (context : Context ρ η) : Context ρ η :=
  if context.finished then context
  else if env.stopRequested context.stopPolls context.waited then
    finish child (.result { status := .clientCancelled }) context.polled
  else context.polled

def unlessStopped (fn : Throwing ρ η) : Throwing ρ η := fun context =>
  let context := finishIfStopped child env context
  if context.finished then (context, none) else fn context

def getRetryDelay (step : NextStep) (retryNumber : Nat) : Nat :=
  if step = .retryImmediately then 0 else env.backoff step (child.delayIndex retryNumber)

def retryOrFinish (waitAndExecute : Context ρ η → Context ρ η) (result : Result ρ)
    (context : Context ρ η) : Context ρ η :=
  let decision := getRetryDecision result.status settings
  let context := if decision.resetSession then context.resetSession else context
  if decision.step = .finish then finish child (.result result) context
  else waitAndExecute (context.retried (getRetryDelay child env decision.step context.retryNumber))

/-- The time limit is checked only when success and the number of retries do not end it. -/
def doNext (waitAndExecute : Context ρ η → Context ρ η) (result : Result ρ) (context : Context ρ η) :
    Context ρ η :=
  if context.finished then context
  else
    let context := finishIfStopped child env context
    if context.finished then context
    else if result.status = .success ∨ settings.maxRetries ≤ context.retryNumber then
      finish child (.result result) context
    else if env.expired context.timeChecks context.waited then
      finish child (.result result) context.checked
    else retryOrFinish child env settings waitAndExecute result context.checked

/-- What the handlers of `Guarded` make of the end of its code. -/
def handled (onAttemptReady : Result ρ → Context ρ η → Context ρ η) :
    Context ρ η × Option (Thrown η) → Context ρ η
  | (after, none) => after
  | (after, some (.rangeError status)) => onAttemptReady { status } after
  | (after, some (.other error)) => finish child (.exception error) after

def guarded (onAttemptReady : Result ρ → Context ρ η → Context ρ η) (fn : Throwing ρ η)
    (context : Context ρ η) : Context ρ η :=
  handled child onAttemptReady (fn context)

def getValue {α : Type} (fn : α → Throwing ρ η) : Except (Thrown η) α → Throwing ρ η
  | .ok value => fn value
  | .error error => fun context => (context, some error)

def invokeOperation (await : Except (Thrown η) (Result ρ) → Throwing ρ η) : Throwing ρ η :=
  fun context =>
    match env.operation (context.actions.count .operation) with
    | .throws error => (context.called .operation, some error)
    | .future answer => await answer (context.called .operation)

def gotSession (onAttemptReady : Result ρ → Context ρ η → Context ρ η) (operation : Throwing ρ η)
    (status : EStatus) : Throwing ρ η := fun context =>
  if status = .success then unlessStopped child env operation { context with session := true }
  else (onAttemptReady { status } context, none)

def executeSession (withSession : Bool) (await : Except (Thrown η) EStatus → Throwing ρ η)
    (operation : Throwing ρ η) : Throwing ρ η := fun context =>
  if withSession && !context.session then
    match env.getSession (context.actions.count .getSession) with
    | .throws error => (context.called .getSession, some error)
    | .future answer => await answer (context.called .getSession)
  else operation context

def runAttempt (onAttemptReady : Result ρ → Context ρ η → Context ρ η) (executeImpl : Throwing ρ η) :
    Context ρ η → Context ρ η :=
  guarded child onAttemptReady (unlessStopped child env executeImpl)

end Base

variable (env : Environment ρ η) (settings : RetryOperationSettings) (withSession : Bool)

/-! ## The synchronous context -/

namespace Sync

def onAttemptReady (result : Result ρ) (context : Context ρ η) : Context ρ η :=
  { context with result := some result }

def child : Child ρ η where
  onReady
    | .result result, context => onAttemptReady result context
    | .exception error, context => { context with exception := some error }
  delayIndex := id

def operation : Throwing ρ η :=
  invokeOperation env (getValue fun result context => (onAttemptReady result context, none))

def executeImpl : Throwing ρ η :=
  executeSession env withSession
    (getValue (gotSession child env onAttemptReady (operation env))) (operation env)

def attempt : Context ρ η → Context ρ η :=
  runAttempt child env onAttemptReady (executeImpl env withSession)

/-- One pass of the loop; the result is there while the context is not finished. -/
def pass (context : Context ρ η) : Context ρ η :=
  match context.result with
  | none => context
  | some result => doNext child env settings (attempt env withSession) result context

def loop : (passes : Nat) → Context ρ η → Context ρ η
  | 0, context => context
  | passes + 1, context =>
    if context.finished then context else loop passes (pass env settings withSession context)

/-- Every pass that goes on counts a retry, so that the loop has at most one pass more. -/
def execute : Context ρ η :=
  loop env settings withSession (settings.maxRetries + 1) (attempt env withSession {})

def outcome (context : Context ρ η) : Option (Ending ρ η) :=
  match context.exception with
  | some error => some (.exception error)
  | none => context.result.map .result

end Sync

/-! ## The asynchronous context -/

namespace Async

def child : Child ρ η where
  onReady ending context := { context with promise := some ending }
  delayIndex := (· + 1)

def schedule (context : Context ρ η) : Context ρ η := { context with pending := some .timer }

def onAttemptReady : Result ρ → Context ρ η → Context ρ η := doNext child env settings schedule

def operation : Throwing ρ η :=
  invokeOperation env fun answer context => ({ context with pending := some (.operation answer) }, none)

def executeImpl : Throwing ρ η :=
  executeSession env withSession
    (fun answer context => ({ context with pending := some (.session answer) }, none)) (operation env)

def attempt : Context ρ η → Context ρ η :=
  runAttempt child env (onAttemptReady env settings) (executeImpl env withSession)

def complete (context : Context ρ η) : Context ρ η :=
  let taken := { context with pending := none }
  match context.pending with
  | none => context
  | some .timer => attempt env settings withSession taken
  | some (.session answer) =>
    guarded child (onAttemptReady env settings)
      (getValue (gotSession child env (onAttemptReady env settings) (operation env)) answer) taken
  | some (.operation answer) =>
    guarded child (onAttemptReady env settings)
      (getValue (fun result context => (onAttemptReady env settings result context, none)) answer) taken

def execute (completions : Nat) : Context ρ η :=
  (complete env settings withSession)^[completions] (attempt env settings withSession {})

end Async

/-! ## Agreement -/

/-- The stop token and the time limit give the same answers however long the contexts waited. -/
def Environment.Steady (env : Environment ρ η) : Prop :=
  (∀ poll waited longer, env.stopRequested poll waited = env.stopRequested poll longer) ∧
    ∀ check waited longer, env.expired check waited = env.expired check longer

/-- The asynchronous context with nothing pending that is as far as a synchronous one. -/
def asynchronous (waited : Nat) (context : Context ρ η) : Context ρ η :=
  { context with
    waited
    result := none
    exception := none
    pending := none
    promise := if context.finished then Sync.outcome context else none }

def Goes (context : Context ρ η) : Prop := context.finished = false ∧ context.exception = none

variable {env settings withSession} {context : Context ρ η} {waited : Nat}

theorem Goes.not_finished (goes : Goes context) : ¬ context.finished = true := by simp [goes.1]

theorem Goes.not_finished_asynchronous (goes : Goes context) :
    ¬ (asynchronous waited context).finished = true :=
  goes.not_finished

def EndAlike (sync async : Context ρ η) : Prop :=
  sync.finished = true ∧ (Sync.outcome sync).isSome = true ∧ ∃ waited, async = asynchronous waited sync

def WaitAlike (retryNumber : Nat) (wait schedule : Context ρ η → Context ρ η) (sync async : Context ρ η) :
    Prop :=
  ∃ next longer, Goes next ∧ next.retryNumber = retryNumber + 1 ∧ sync = wait next ∧
    async = schedule (asynchronous longer next)

theorem EndAlike.both {async : Context ρ η} (alike : EndAlike sync async) :
    sync.finished = true ∧ async.finished = true := by
  obtain ⟨finished, -, waited, rfl⟩ := alike
  exact ⟨finished, finished⟩

theorem endAlike_finish (goes : Goes context) (ending : Ending ρ η) :
    EndAlike (finish Sync.child ending context) (finish Async.child ending (asynchronous waited context)) := by
  obtain ⟨unfinished, none⟩ := goes
  cases ending with
  | result result =>
    refine ⟨?_, ?_, waited, ?_⟩ <;> simp [finish, asynchronous, Async.child, Sync.child,
      Sync.onAttemptReady, Sync.outcome, unfinished, none]
  | exception error =>
    refine ⟨?_, ?_, waited, ?_⟩ <;> simp [finish, asynchronous, Async.child, Sync.child,
      Sync.outcome, unfinished]

theorem finishIfStopped_asynchronous (steady : env.Steady) (goes : Goes context) :
    EndAlike (finishIfStopped Sync.child env context)
      (finishIfStopped Async.child env (asynchronous waited context)) ∨
    finishIfStopped Sync.child env context = context.polled ∧
      finishIfStopped Async.child env (asynchronous waited context) = asynchronous waited context.polled := by
  have same : env.stopRequested (asynchronous waited context).stopPolls (asynchronous waited context).waited =
      env.stopRequested context.stopPolls context.waited := steady.1 _ _ _
  unfold finishIfStopped
  rw [if_neg goes.not_finished, same, if_neg goes.not_finished_asynchronous]
  split
  · exact .inl (@endAlike_finish ρ η context.polled waited goes _)
  · exact .inr ⟨rfl, rfl⟩

variable {wait schedule : Context ρ η → Context ρ η} {result : Result ρ}

theorem retryOrFinish_asynchronous (goes : Goes context) :
    EndAlike (retryOrFinish Sync.child env settings wait result context)
      (retryOrFinish Async.child env settings schedule result (asynchronous waited context)) ∨
    WaitAlike context.retryNumber wait schedule (retryOrFinish Sync.child env settings wait result context)
      (retryOrFinish Async.child env settings schedule result (asynchronous waited context)) := by
  unfold retryOrFinish
  obtain ⟨step, reset⟩ := getRetryDecision result.status settings
  have left : Goes (if reset then context.resetSession else context) := by
    cases reset <;> exact goes
  have number : (if reset then context.resetSession else context).retryNumber = context.retryNumber := by
    cases reset <;> rfl
  have same : (if reset then (asynchronous waited context).resetSession else asynchronous waited context) =
      asynchronous waited (if reset then context.resetSession else context) := by
    cases reset <;> rfl
  dsimp only
  rw [same]
  generalize (if reset then context.resetSession else context) = ready at left number
  split
  · exact .inl (endAlike_finish left _)
  · exact .inr ⟨ready.retried _, waited + getRetryDelay Async.child env step ready.retryNumber, left,
      congrArg (· + 1) number, rfl, rfl⟩

theorem doNext_asynchronous (steady : env.Steady) (goes : Goes context) :
    EndAlike (doNext Sync.child env settings wait result context)
      (doNext Async.child env settings schedule result (asynchronous waited context)) ∨
    context.retryNumber < settings.maxRetries ∧
      WaitAlike context.retryNumber wait schedule (doNext Sync.child env settings wait result context)
        (doNext Async.child env settings schedule result (asynchronous waited context)) := by
  have time : env.expired (asynchronous waited context.polled).timeChecks
      (asynchronous waited context.polled).waited = env.expired context.timeChecks context.waited :=
    steady.2 _ _ _
  unfold doNext
  rw [if_neg goes.not_finished, if_neg goes.not_finished_asynchronous]
  rcases @finishIfStopped_asynchronous ρ η env context waited steady goes with stopped | ⟨polled, alsoPolled⟩
  · left
    rw [if_pos stopped.both.1, if_pos stopped.both.2]
    exact stopped
  · have going : Goes context.polled := goes
    rw [polled, alsoPolled, if_neg going.not_finished, if_neg going.not_finished_asynchronous, time]
    change EndAlike (if result.status = .success ∨ settings.maxRetries ≤ context.retryNumber then _ else _)
      (if result.status = .success ∨ settings.maxRetries ≤ context.retryNumber then _ else _) ∨ _ ∧
      WaitAlike _ _ _ (if result.status = .success ∨ settings.maxRetries ≤ context.retryNumber then _ else _)
        (if result.status = .success ∨ settings.maxRetries ≤ context.retryNumber then _ else _)
    split
    · exact .inl (@endAlike_finish ρ η context.polled waited goes _)
    · change EndAlike (if env.expired context.timeChecks context.waited then _ else _) _ ∨ _ ∧
        WaitAlike _ _ _ (if env.expired context.timeChecks context.waited then _ else _) _
      split
      · exact .inl (@endAlike_finish ρ η context.polled.checked waited goes _)
      · rcases @retryOrFinish_asynchronous ρ η env settings context.polled.checked waited wait schedule
          result goes with alike | waits
        · exact .inl alike
        · exact .inr ⟨by omega, waits⟩

/-- After an attempt both contexts have ended alike, or the asynchronous one goes on with the result
that the synchronous one has stored. -/
def ReadyAlike (env : Environment ρ η) (settings : RetryOperationSettings) (retryNumber : Nat)
    (sync async : Context ρ η) : Prop :=
  EndAlike sync async ∨ Goes sync ∧ sync.retryNumber = retryNumber ∧ ∃ result waited,
    sync.result = some result ∧ async = Async.onAttemptReady env settings result (asynchronous waited sync)

theorem readyAlike_result (goes : Goes context) (result : Result ρ) :
    ReadyAlike env settings context.retryNumber (Sync.onAttemptReady result context)
      (Async.onAttemptReady env settings result (asynchronous waited context)) := by
  have same : asynchronous waited (Sync.onAttemptReady result context) = asynchronous waited context := by
    simp [asynchronous, Sync.onAttemptReady, goes.1]
  exact .inr ⟨goes, rfl, result, waited, rfl, by rw [same]⟩

theorem readyAlike_thrown (goes : Goes context) (error : Thrown η) :
    ReadyAlike env settings context.retryNumber
      (handled Sync.child Sync.onAttemptReady (context, some error))
      (handled Async.child (Async.onAttemptReady env settings) (asynchronous waited context, some error)) := by
  cases error with
  | rangeError status => exact readyAlike_result goes _
  | other error => exact .inl (endAlike_finish goes _)

def Meets (env : Environment ρ η) (settings : RetryOperationSettings) (withSession : Bool)
    (retryNumber : Nat) (sync async : Context ρ η) : Prop :=
  ∃ completions, ReadyAlike env settings retryNumber sync
    ((Async.complete env settings withSession)^[completions] async)

theorem Meets.now
    (alike : ReadyAlike env settings retryNumber sync async) :
    Meets env settings withSession retryNumber sync async :=
  ⟨0, alike⟩

theorem Meets.later
    (meets : Meets env settings withSession retryNumber sync (Async.complete env settings withSession async)) :
    Meets env settings withSession retryNumber sync async := by
  obtain ⟨completions, alike⟩ := meets
  exact ⟨completions + 1, alike⟩

def HandledMeets (env : Environment ρ η) (settings : RetryOperationSettings) (withSession : Bool)
    (retryNumber : Nat) (sync async : Context ρ η × Option (Thrown η)) : Prop :=
  Meets env settings withSession retryNumber (handled Sync.child Sync.onAttemptReady sync)
    (handled Async.child (Async.onAttemptReady env settings) async)

theorem operation_meets (goes : Goes context) :
    HandledMeets env settings withSession context.retryNumber (Sync.operation env context)
      (Async.operation env (asynchronous waited context)) := by
  have called : Goes (context.called .operation) := goes
  unfold Sync.operation Async.operation invokeOperation
  change HandledMeets _ _ _ _ _ (match env.operation (context.actions.count .operation) with
    | .throws error => _
    | .future answer => _)
  cases env.operation (context.actions.count .operation) with
  | throws error => exact .now (readyAlike_thrown called error)
  | future answer =>
    refine .later (.now ?_)
    cases answer with
    | error error => exact readyAlike_thrown called error
    | ok result => exact readyAlike_result called result

theorem unlessStopped_meets {retryNumber : Nat} {syncCode asyncCode : Throwing ρ η} (steady : env.Steady)
    (goes : Goes context)
    (meets : HandledMeets env settings withSession retryNumber (syncCode context.polled)
      (asyncCode (asynchronous waited context.polled))) :
    HandledMeets env settings withSession retryNumber (unlessStopped Sync.child env syncCode context)
      (unlessStopped Async.child env asyncCode (asynchronous waited context)) := by
  unfold unlessStopped
  rcases @finishIfStopped_asynchronous ρ η env context waited steady goes with stopped | ⟨polled, alsoPolled⟩
  · rw [if_pos stopped.both.1, if_pos stopped.both.2]
    exact .now (.inl stopped)
  · have going : Goes context.polled := goes
    rw [polled, alsoPolled, if_neg going.not_finished, if_neg going.not_finished_asynchronous]
    exact meets

theorem gotSession_meets (steady : env.Steady) (goes : Goes context) (status : EStatus) :
    HandledMeets env settings withSession context.retryNumber
      (gotSession Sync.child env Sync.onAttemptReady (Sync.operation env) status context)
      (gotSession Async.child env (Async.onAttemptReady env settings) (Async.operation env) status
        (asynchronous waited context)) := by
  have held : Goes { context with session := true } := goes
  unfold gotSession
  split
  · exact @unlessStopped_meets ρ η env settings withSession { context with session := true } waited _ _ _
      steady held (operation_meets held)
  · exact .now (readyAlike_result goes _)

theorem executeImpl_meets (steady : env.Steady) (goes : Goes context) :
    HandledMeets env settings withSession context.retryNumber (Sync.executeImpl env withSession context)
      (Async.executeImpl env withSession (asynchronous waited context)) := by
  have called : Goes (context.called .getSession) := goes
  unfold Sync.executeImpl Async.executeImpl executeSession
  change HandledMeets _ _ _ _ _ (if (withSession && !context.session) = true then
    match env.getSession (context.actions.count .getSession) with
    | .throws error => _
    | .future answer => _ else _)
  split
  · cases env.getSession (context.actions.count .getSession) with
    | throws error => exact .now (readyAlike_thrown called error)
    | future answer =>
      refine .later ?_
      cases answer with
      | error error => exact .now (readyAlike_thrown called error)
      | ok status => exact gotSession_meets steady called status
  · exact operation_meets goes

theorem attempt_meets (steady : env.Steady) (goes : Goes context) :
    Meets env settings withSession context.retryNumber (Sync.attempt env withSession context)
      (Async.attempt env settings withSession (asynchronous waited context)) :=
  unlessStopped_meets steady goes (executeImpl_meets steady goes)

theorem Sync.loop_finished (finished : context.finished = true) (passes : Nat) :
    Sync.loop env settings withSession passes context = context := by
  cases passes with
  | zero => rfl
  | succ passes => rw [Sync.loop, if_pos finished]

/-- The passes of the loop and the callbacks lead to the same end. -/
theorem loop_ends (steady : env.Steady) (passes : Nat)
    (within : retryNumber ≤ settings.maxRetries) (enough : settings.maxRetries < retryNumber + passes)
    (meets : Meets env settings withSession retryNumber sync async) :
    ∃ completions, EndAlike (Sync.loop env settings withSession passes sync)
      ((Async.complete env settings withSession)^[completions] async) := by
  induction passes generalizing sync async retryNumber with
  | zero => omega
  | succ passes ih =>
    obtain ⟨completions, alike | ⟨goes, number, result, waited, stored, going⟩⟩ := meets
    · refine ⟨completions, ?_⟩
      rw [Sync.loop_finished alike.1]
      exact alike
    · rw [Sync.loop, if_neg goes.not_finished, Sync.pass, stored]
      rcases @doNext_asynchronous ρ η env settings sync waited (Sync.attempt env withSession)
        Async.schedule result steady goes with alike | ⟨more, next, longer, goesOn, counted, waits, scheduled⟩
      · refine ⟨completions, ?_⟩
        rw [going, Sync.loop_finished alike.1]
        exact alike
      · have attempted : Meets env settings withSession next.retryNumber (Sync.attempt env withSession next)
            (Async.schedule (asynchronous longer next)) := .later (attempt_meets steady goesOn)
        obtain ⟨rest, ended⟩ := ih (by omega) (by omega) attempted
        refine ⟨rest + completions, ?_⟩
        rw [Function.iterate_add_apply, going, Async.onAttemptReady, scheduled]
        simp only [waits]
        exact ended

/-- When the stop token and the time limit answer alike, both contexts get sessions, reset them and
call the operation in the same order, and end with the same result or exception. -/
theorem contexts_agree (env : Environment ρ η) (settings : RetryOperationSettings) (withSession : Bool)
    (steady : env.Steady) :
    ∃ completions ending,
      (Sync.execute env settings withSession).finished = true ∧
      Sync.outcome (Sync.execute env settings withSession) = some ending ∧
      (Async.execute env settings withSession completions).pending.isNone = true ∧
      (Async.execute env settings withSession completions).promise = some ending ∧
      (Async.execute env settings withSession completions).actions =
        (Sync.execute env settings withSession).actions := by
  have meets : Meets env settings withSession 0 (Sync.attempt env withSession {})
      (Async.attempt env settings withSession {}) :=
    @attempt_meets ρ η env settings withSession {} 0 steady ⟨rfl, rfl⟩
  obtain ⟨completions, finished, some, waited, same⟩ :=
    loop_ends steady (settings.maxRetries + 1) (Nat.zero_le _) (by omega) meets
  obtain ⟨ending, outcome⟩ := Option.isSome_iff_exists.mp some
  refine ⟨completions, ending, finished, outcome, ?_⟩
  rw [Async.execute, same]
  refine ⟨rfl, ?_, rfl⟩
  change (if (Sync.execute env settings withSession).finished then _ else none) = _
  rw [Sync.execute, if_pos finished]
  exact outcome

def operationsOf (statuses : List EStatus) (call : Nat) : Call (Result Nat) Nat :=
  match statuses[call]? with
  | some status => .future (.ok { status, value := some call })
  | none => .throws (.other call)

/-- An operation on a session that fails twice, on a stream of sessions of which the second is bad. -/
theorem contexts_agree_after_retries :
    let env : Environment Nat Nat := {
      getSession call := .future (.ok (if call = 1 then .unavailable else .success))
      operation := operationsOf [.badSession, .aborted, .success]
      stopRequested _ _ := false
      expired _ _ := false
      backoff _ retryNumber := 100 * 2 ^ retryNumber }
    ∃ completions, (Async.execute env ⟨10, false, false, false⟩ true completions).actions =
      [.getSession, .operation, .resetSession, .getSession, .getSession, .operation, .operation] := by
  intro env
  obtain ⟨completions, ending, -, -, -, -, same⟩ :=
    contexts_agree env ⟨10, false, false, false⟩ true ⟨fun _ _ _ => rfl, fun _ _ _ => rfl⟩
  refine ⟨completions, same.trans ?_⟩
  decide +kernel

/-- The asynchronous context waits one doubling longer, so that a time limit of 150 ends it one
attempt before the synchronous one, which succeeds. -/
theorem waits_differ :
    let env : Environment Nat Nat := {
      getSession _ := .future (.ok .success)
      operation := operationsOf [.unavailable, .unavailable, .success]
      stopRequested _ _ := false
      expired _ waited := decide (150 ≤ waited)
      backoff _ retryNumber := 100 * 2 ^ retryNumber }
    Sync.outcome (Sync.execute env ⟨10, false, false, false⟩ false) =
        some (.result { status := .success, value := some 2 }) ∧
      (Async.execute env ⟨10, false, false, false⟩ false 3).promise =
        some (.result { status := .unavailable, value := some 1 }) := by
  decide +kernel

end YdbSdk.Retry
