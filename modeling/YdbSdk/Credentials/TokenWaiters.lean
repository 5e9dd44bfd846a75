import YdbSdk.Control.Run

namespace YdbSdk.Credentials

open YdbSdk.Control Code List

/-! # The futures of the refreshing token provider

`TProviderBase` hands out the future of one pending promise until it has a token.  Every section
under its mutex is one step, and what a thread does after it is a task that may be done at any
later time.
-/

structure OAuthToken where
  token : String
  expiresAt : Option Nat
deriving DecidableEq

def OAuthToken.isValid (token : OAuthToken) (now : Nat) : Bool :=
  token.token ≠ "" && token.expiresAt.all (now < ·)

def OAuthToken.validAt (token : OAuthToken) (now : Nat) : Option { token : OAuthToken // token.isValid now } :=
  if valid : token.isValid now then some ⟨token, valid⟩ else none

inductive Error where
  | providerStopped
  | accessTokenExpiredBeforeDelivery
  /-- What an update or the response queue threw. -/
  | thrown (what : String)
deriving DecidableEq

/-- Only a token that is valid at the time can be delivered. -/
inductive Outcome where
  | value (now : Nat) (token : { token : OAuthToken // token.isValid now })
  | exception (error : Error)

structure Delivery where
  promise : Nat
  callbackLifetime : Nat
deriving DecidableEq

/-- The callback that `Complete` posts; it holds the lifetime its delivery refers to. -/
structure Completion where
  delivery : Delivery
  result : Error ⊕ OAuthToken
deriving DecidableEq

inductive Task where
  | setException (promise : Nat) (error : Error)
  | complete (promise : Nat) (result : Error ⊕ OAuthToken)
  | post (completion : Completion)
  | cancelDeliveries
deriving DecidableEq

/-- `pending` numbers the promises.  The fields after `deliveries` are the response queue, the
tasks of all threads and the history: the promises that were settled, the futures that were made
with their result, and the promises whose future was given to a caller. -/
structure State where
  facilityExpired : Bool := false
  stopping : Bool := false
  tokens : Option OAuthToken := none
  error : Option Error := none
  pending : Nat := 0
  deliveries : List Delivery := []
  responseQueue : List Completion := []
  tasks : List Task := []
  lifetimes : Nat := 0
  settled : List (Nat × Outcome) := []
  ready : List Outcome := []
  waiters : List Nat := []

def State.isSettled (state : State) (promise : Nat) : Bool := promise ∈ state.settled.map Prod.fst

/-- `TrySetValue` and `TrySetException`. -/
def State.trySet (state : State) (promise : Nat) (outcome : Outcome) : State :=
  if state.isSettled promise then state
  else { state with settled := state.settled ++ [(promise, outcome)] }

def State.getAuthInfoAsync (state : State) (now : Nat) : State :=
  let made outcome := { state with ready := state.ready ++ [outcome] }
  if state.stopping || state.facilityExpired then made (.exception .providerStopped)
  else
    match state.tokens.bind (·.validAt now), state.error with
    | some token, _ => made (.value now token)
    | none, some error => made (.exception error)
    | none, none => { state with waiters := state.waiters ++ [state.pending] }

/-- The thread that leaves a section has these tasks before it. -/
def State.hand (state : State) (tasks : List Task) : State := { state with tasks := state.tasks ++ tasks }

def State.requestStop (state : State) : State :=
  if state.stopping then state
  else
    { state with stopping := true }.hand [.setException state.pending .providerStopped, .cancelDeliveries]

def State.publish (state : State) (token : OAuthToken) : State :=
  if state.stopping then state
  else
    { state with tokens := some token, error := none, pending := state.pending + 1 }.hand
      [.complete state.pending (.inr token)]

def State.fail (state : State) (error : Error) : State :=
  { state with error := some error }.hand [.complete state.pending (.inl error)]

def State.unsettled (state : State) : List Delivery :=
  state.deliveries.filter fun delivery => !state.isSettled delivery.promise

def State.complete (state : State) (promise : Nat) (result : Error ⊕ OAuthToken) : State :=
  if state.stopping then
    { state with deliveries := state.unsettled }.hand [.setException promise .providerStopped]
  else
    let delivery := ⟨promise, state.lifetimes⟩
    { state with
      deliveries := state.unsettled ++ [delivery]
      lifetimes := state.lifetimes + 1 }.hand [.post ⟨delivery, result⟩]

/-- The queue may throw instead of taking the callback. -/
def State.post (state : State) (completion : Completion) (thrown : Option String) : State :=
  let promise := completion.delivery.promise
  if state.facilityExpired then state.trySet promise (.exception .providerStopped)
  else
    match thrown with
    | some what => state.trySet promise (.exception (.thrown what))
    | none => { state with responseQueue := state.responseQueue ++ [completion] }

def State.run (state : State) (completion : Completion) (now : Nat) : State :=
  state.trySet completion.delivery.promise <|
    match completion.result with
    | .inl error => .exception error
    | .inr token => ((token.validAt now).map (.value now)).getD (.exception .accessTokenExpiredBeforeDelivery)

/-- Nothing holds the callback of the delivery any more. -/
def State.expired (state : State) (delivery : Delivery) : Bool :=
  state.responseQueue.all (·.delivery ≠ delivery) &&
    state.tasks.all fun task => match task with
      | .post completion => completion.delivery ≠ delivery
      | _ => true

def Delivery.cancelled (delivery : Delivery) : Task := .setException delivery.promise .providerStopped

def State.completeDiscardedDeliveries (state : State) : State :=
  { state with deliveries := state.unsettled.filter fun delivery => !state.expired delivery }.hand
    ((state.unsettled.filter state.expired).map Delivery.cancelled)

def State.cancelDeliveries (state : State) : State :=
  { state with deliveries := [] }.hand (state.deliveries.map Delivery.cancelled)

def State.perform (state : State) (thrown : Option String) : Task → State
  | .setException promise error => state.trySet promise (.exception error)
  | .complete promise result => state.complete promise result
  | .post completion => state.post completion thrown
  | .cancelDeliveries => state.cancelDeliveries

def State.done (state : State) (task : Task) : State := { state with tasks := state.tasks.erase task }

def State.taken (state : State) (completion : Completion) : State :=
  { state with responseQueue := state.responseQueue.erase completion }

/-- `Stop` requests the stop and at last cancels the deliveries. -/
inductive Event where
  | getAuthInfoAsync (now : Nat)
  | requestStop
  | cancelDeliveries
  | publish (token : OAuthToken)
  | fail (error : Error)
  | completeDiscardedDeliveries
  | perform (task : Task) (thrown : Option String)
  | runCallback (completion : Completion) (now : Nat)
  | dropCallback (completion : Completion)
  | expireFacility

def State.step (state : State) : Event → State
  | .getAuthInfoAsync now => state.getAuthInfoAsync now
  | .requestStop => state.requestStop
  | .cancelDeliveries => state.cancelDeliveries
  | .publish token => state.publish token
  | .fail error => state.fail error
  | .completeDiscardedDeliveries => state.completeDiscardedDeliveries
  | .perform task thrown => (state.perform thrown task).done task
  | .runCallback completion now => (state.taken completion).run completion now
  | .dropCallback completion => state.taken completion
  | .expireFacility => { state with facilityExpired := true }

def react (event : Event) : Code Empty Empty State Unit := .update fun state => state.step event

def Permitted (state : State) : Event → Prop
  | .perform task _ => task ∈ state.tasks
  | .runCallback completion _ | .dropCallback completion => completion ∈ state.responseQueue
  | _ => True

instance (state : State) (event : Event) : Decidable (Permitted state event) := by
  cases event <;> unfold Permitted <;> infer_instance

/-! ## No promise is forgotten -/

def Task.settles (promise : Nat) : Task → Prop
  | .setException settled _ | .complete settled _ => settled = promise
  | .post _ | .cancelDeliveries => False

/-- The promise is settled, or a task or a delivery will settle it. -/
def State.Coming (state : State) (promise : Nat) : Prop :=
  state.isSettled promise ∨ (∃ task ∈ state.tasks, task.settles promise) ∨
    ∃ delivery ∈ state.deliveries, delivery.promise = promise

structure Sound (state : State) : Prop where
  once : (state.settled.map Prod.fst).Nodup
  made : ∀ promise ∈ state.waiters, promise ≤ state.pending
  coming : ∀ promise ∈ state.waiters, state.Coming promise ∨
    promise = state.pending ∧ state.error = none ∧ state.stopping = false
  stopped : state.stopping = true → state.deliveries = [] ∨ .cancelDeliveries ∈ state.tasks

variable {state after : State} {promise : Nat} {outcome : Outcome} {task : Task}

/-- What a thread has in hand is not lost when others go on. -/
theorem State.Coming.grow (coming : state.Coming promise) (settled : state.settled ⊆ after.settled)
    (tasks : ∀ task ∈ state.tasks, task.settles promise → after.Coming promise)
    (deliveries : ∀ delivery ∈ state.deliveries, delivery ∈ after.deliveries ∨
      state.isSettled delivery.promise ∨ delivery.cancelled ∈ after.tasks) : after.Coming promise := by
  have grown (promise : Nat) (isSettled : state.isSettled promise) : after.isSettled promise :=
    decide_eq_true (map_subset Prod.fst settled (of_decide_eq_true isSettled))
  rcases coming with isSettled | ⟨task, member, settles⟩ | ⟨delivery, member, rfl⟩
  · exact .inl (grown promise isSettled)
  · exact tasks task member settles
  · rcases deliveries delivery member with kept | isSettled | given
    · exact .inr (.inr ⟨delivery, kept, rfl⟩)
    · exact .inl (grown _ isSettled)
    · exact .inr (.inl ⟨_, given, rfl⟩)

theorem State.Coming.hand {left : List Delivery} {lifetimes : Nat} {tasks : List Task}
    (coming : state.Coming promise)
    (accounted : ∀ delivery ∈ state.deliveries, delivery ∈ left ∨ state.isSettled delivery.promise ∨
      delivery.cancelled ∈ tasks) :
    ({ state with deliveries := left, lifetimes := lifetimes }.hand tasks).Coming promise := by
  refine coming.grow (.refl _) (fun task member settles => .inr (.inl ⟨task, ?_, settles⟩))
    fun delivery member => ?_
  · exact mem_append_left _ member
  · exact (accounted delivery member).imp_right (.imp_right (mem_append_right _))

theorem State.mem_unsettled (delivery : Delivery) (member : delivery ∈ state.deliveries) :
    delivery ∈ state.unsettled ∨ state.isSettled delivery.promise := by
  cases settled : state.isSettled delivery.promise with
  | true => exact .inr rfl
  | false => exact .inl (by simp [State.unsettled, member, settled])

theorem Sound.trySet (sound : Sound state) : Sound (state.trySet promise outcome) := by
  unfold State.trySet
  split
  · exact sound
  · rename_i unsettled
    have absent : promise ∉ state.settled.map Prod.fst := fun member => unsettled (decide_eq_true member)
    refine { sound with
      once := ?_
      coming := fun other waits => (sound.coming other waits).imp_left fun coming => ?_ }
    · rw [map_append]
      exact nodup_append.mpr ⟨sound.once, by simp, by grind⟩
    · exact coming.grow (subset_append_left _ _)
        (fun task member settles => .inr (.inl ⟨task, member, settles⟩)) fun _ member => .inl member

theorem State.trySet_settled : (state.trySet promise outcome).isSettled promise := by
  unfold State.trySet
  split
  · assumption
  · simp [State.isSettled]

/-- A section forgets deliveries that are settled or that its thread cancels. -/
theorem Sound.hand {left : List Delivery} {tasks : List Task} (sound : Sound state)
    (fewer : left ⊆ state.deliveries) (accounted : ∀ delivery ∈ state.deliveries,
      delivery ∈ left ∨ state.isSettled delivery.promise ∨ delivery.cancelled ∈ tasks) :
    Sound ({ state with deliveries := left }.hand tasks) := by
  refine { sound with
    coming := fun other waits => (sound.coming other waits).imp_left fun coming => coming.hand accounted
    stopped := fun stopping => (sound.stopped stopping).imp (fun none => ?_) (mem_append_left _) }
  rw [none] at fewer
  exact subset_nil.mp fewer

theorem Sound.cancelDeliveries (sound : Sound state) : Sound state.cancelDeliveries :=
  sound.hand (nil_subset _) fun _ member => .inr (.inr (mem_map_of_mem member))

/-- A task is done when what it settles is coming without it. -/
theorem Sound.done (sound : Sound state)
    (discharged : ∀ promise, task.settles promise → (state.done task).Coming promise)
    (cancels : task = .cancelDeliveries → state.deliveries = []) : Sound (state.done task) := by
  refine { sound with
    coming := fun promise waits => (sound.coming promise waits).imp_left fun coming => ?_
    stopped := fun stopping => ?_ }
  · refine coming.grow (.refl _) (fun other member settles => ?_) fun _ member => .inl member
    by_cases same : other = task
    · exact discharged promise (same ▸ settles)
    · exact .inr (.inl ⟨other, (mem_erase_of_ne same).mpr member, settles⟩)
  · by_cases same : .cancelDeliveries = task
    · exact .inl (cancels same.symm)
    · exact (sound.stopped stopping).imp_right (mem_erase_of_ne same).mpr

theorem Sound.complete {result : Error ⊕ OAuthToken} (sound : Sound state) :
    Sound ((state.complete promise result).done (.complete promise result)) := by
  unfold State.complete
  split
  · refine (sound.hand filter_sublist.subset fun delivery member => ?_).done ?_ nofun
    · exact (state.mem_unsettled delivery member).imp_right .inl
    · rintro _ rfl
      refine .inr (.inl ⟨.setException promise .providerStopped, (mem_erase_of_ne (by simp)).mpr ?_, rfl⟩)
      exact mem_append_right _ mem_cons_self
  · rename_i running
    refine .done { sound with
      coming := fun other waits => (sound.coming other waits).imp_left fun coming => ?_
      stopped := fun stopping => absurd stopping running } ?_ nofun
    · refine coming.hand fun delivery member => ?_
      exact (state.mem_unsettled delivery member).imp (mem_append_left _) .inl
    · rintro _ rfl
      exact .inr (.inr ⟨_, mem_append_right _ mem_cons_self, rfl⟩)

theorem Sound.perform {thrown : Option String} (sound : Sound state) :
    Sound ((state.perform thrown task).done task) := by
  cases task with
  | setException promise error =>
    refine sound.trySet.done ?_ nofun
    rintro _ rfl
    exact .inl State.trySet_settled
  | complete promise result => exact sound.complete
  | post completion =>
    have posted : Sound (state.post completion thrown) := by
      unfold State.post
      split
      · exact sound.trySet
      · split
        · exact sound.trySet
        · exact { sound with }
    exact posted.done (fun _ settles => settles.elim) nofun
  | cancelDeliveries => exact sound.cancelDeliveries.done (fun _ settles => settles.elim) fun _ => rfl

/-- A section that gives the pending promise to a task leaves no caller without one. -/
theorem Sound.conclude (sound : Sound state) (given : task ∈ tasks)
    (settles : task.settles state.pending) (waits : promise ∈ state.waiters) :
    (state.hand tasks).Coming promise := by
  rcases sound.coming promise waits with coming | isOpen
  · exact @State.Coming.hand state promise state.deliveries _ tasks coming fun _ member => .inl member
  · exact .inr (.inl ⟨task, mem_append_right _ given, isOpen.1 ▸ settles⟩)

theorem step_sound (event : Event) (sound : Sound state) : Sound (state.step event) := by
  cases event with
  | getAuthInfoAsync now =>
    simp only [State.step, State.getAuthInfoAsync]
    split
    · exact { sound with }
    · split
      · exact { sound with }
      · exact { sound with }
      · rename_i fine
        have unstopped : state.stopping = false := by simp_all
        exact { sound with
          made := forall_mem_append.mpr ⟨sound.made, by simp⟩
          coming := forall_mem_append.mpr ⟨sound.coming,
            forall_mem_singleton.mpr (.inr ⟨rfl, fine, unstopped⟩)⟩ }
  | requestStop =>
    simp only [State.step, State.requestStop]
    split
    · exact sound
    · exact { sound with
        coming := fun _ waits => .inl (sound.conclude mem_cons_self rfl waits)
        stopped := fun _ => .inr (by simp [State.hand]) }
  | cancelDeliveries => exact sound.cancelDeliveries
  | publish token =>
    simp only [State.step, State.publish]
    split
    · exact sound
    · rename_i running
      exact { sound with
        made := fun promise waits => Nat.le_succ_of_le (sound.made promise waits)
        coming := fun _ waits => .inl (sound.conclude mem_cons_self rfl waits)
        stopped := fun stopping => absurd stopping running }
  | fail error =>
    exact { sound with
      coming := fun _ waits => .inl (sound.conclude mem_cons_self rfl waits)
      stopped := fun stopping => (sound.stopped stopping).imp_right (mem_append_left _) }
  | completeDiscardedDeliveries =>
    refine sound.hand (filter_sublist.trans filter_sublist).subset fun delivery member => ?_
    rcases state.mem_unsettled delivery member with unsettled | settled
    · cases expired : state.expired delivery with
      | true => exact .inr (.inr (mem_map_of_mem (mem_filter.mpr ⟨unsettled, expired⟩)))
      | false => exact .inl (mem_filter.mpr ⟨unsettled, by rw [expired]; rfl⟩)
    · exact .inr (.inl settled)
  | perform task thrown => exact sound.perform
  | runCallback completion now => exact .trySet { sound with }
  | dropCallback completion => exact { sound with }
  | expireFacility => exact { sound with }

/-- A thread or the response queue has it in hand, or it will be found at the next look at the
deliveries whose callbacks are gone. -/
def State.InHand (state : State) (promise : Nat) : Prop :=
  (∃ task ∈ state.tasks, task.settles promise) ∨
    ∃ delivery ∈ state.deliveries, delivery.promise = promise ∧ (state.expired delivery ∨
      ∃ completion, completion.delivery = delivery ∧
        (completion ∈ state.responseQueue ∨ .post completion ∈ state.tasks))

end YdbSdk.Credentials
