import Mathlib

namespace YdbSdk.Control

/-! # Imperative code over an explicit state

A piece of code runs on a state and ends in one of three ways: it returns, an
exception leaves it, or a failed assertion stops the process.  An exception does
not roll anything back, so it carries the state it leaves behind.  `Code.wp` is
the weakest precondition of a contract that speaks about all three endings; its
`simp` rules take a contract apart along the text of the code.
-/

inductive Exit (ε φ σ α : Type) where
  | returned (value : α) (after : σ)
  | thrown (exception : ε) (after : σ)
  | stopped (assertion : φ)
deriving DecidableEq

/-- Code with exceptions of type `ε`, assertions of type `φ` and state `σ`. -/
def Code (ε φ σ α : Type) := σ → Exit ε φ σ α

/-- What is promised for each way a piece of code may end. -/
structure Contract (ε φ σ α : Type) where
  returns : α → σ → Prop
  raises : ε → σ → Prop
  stops : φ → Prop

/-- The contract of code that keeps an invariant even when it throws, and stops
only at the assertions allowed by `stops`. -/
@[reducible] def Contract.keeping (invariant : σ → Prop) (stops : φ → Prop := fun _ => True) :
    Contract ε φ σ α where
  returns := fun _ after => invariant after
  raises := fun _ after => invariant after
  stops := stops

/-- An implication that is found as an instance: what need not be argued about an ending. -/
class Entails (stronger weaker : Prop) : Prop where
  entails : stronger → weaker

instance : Entails False proposition := ⟨False.elim⟩
instance : Entails proposition True := ⟨fun _ => trivial⟩
instance : Entails proposition proposition := ⟨id⟩

namespace Code

instance : Monad (Code ε φ σ) where
  pure value := fun state => .returned value state
  bind first next := fun state =>
    match first state with
    | .returned value after => next value after
    | .thrown exception after => .thrown exception after
    | .stopped assertion => .stopped assertion

def read (view : σ → α) : Code ε φ σ α := fun state => .returned (view state) state

def get : Code ε φ σ σ := read id

def update (change : σ → σ) : Code ε φ σ Unit := fun state => .returned () (change state)

def raise (exception : ε) : Code ε φ σ α := fun state => .thrown exception state

def stop (assertion : φ) : Code ε φ σ α := fun _ => .stopped assertion

def require (condition : Bool) (assertion : φ) : Code ε φ σ Unit :=
  if condition then Pure.pure () else stop assertion

def when (condition : Bool) (code : Code ε φ σ Unit) : Code ε φ σ Unit :=
  if condition then code else Pure.pure ()

def forEach : List ι → (ι → Code ε φ σ Unit) → Code ε φ σ Unit
  | [], _ => Pure.pure ()
  | item :: rest, body => do
      body item
      forEach rest body

def wp (code : Code ε φ σ α) (contract : Contract ε φ σ α) (state : σ) : Prop :=
  match code state with
  | .returned value after => contract.returns value after
  | .thrown exception after => contract.raises exception after
  | .stopped assertion => contract.stops assertion

section Rules

variable {code : Code ε φ σ α} {contract weaker : Contract ε φ σ α} {state : σ}

@[simp] theorem wp_pure (value : α) :
    wp (Pure.pure value : Code ε φ σ α) contract state ↔ contract.returns value state :=
  .rfl

@[simp] theorem wp_bind {first : Code ε φ σ α}
    {contract : Contract ε φ σ β} :
    wp (first >>= next) contract state ↔
      wp first ⟨fun value after => wp (next value) contract after,
        contract.raises, contract.stops⟩ state := by
  simp only [wp, bind]
  cases first state <;> rfl

@[simp] theorem wp_read (view : σ → α) :
    wp (read view : Code ε φ σ α) contract state ↔ contract.returns (view state) state :=
  .rfl

@[simp] theorem wp_get {contract : Contract ε φ σ σ} :
    wp (get : Code ε φ σ σ) contract state ↔ contract.returns state state :=
  .rfl

@[simp] theorem wp_update {contract : Contract ε φ σ Unit} (change : σ → σ) :
    wp (update change : Code ε φ σ Unit) contract state ↔
      contract.returns () (change state) :=
  .rfl

@[simp] theorem wp_raise (exception : ε) :
    wp (raise exception : Code ε φ σ α) contract state ↔ contract.raises exception state :=
  .rfl

@[simp] theorem wp_stop (assertion : φ) :
    wp (stop assertion : Code ε φ σ α) contract state ↔ contract.stops assertion :=
  .rfl

@[simp] theorem wp_require {contract : Contract ε φ σ Unit} (condition : Bool) (assertion : φ) :
    wp (require condition assertion : Code ε φ σ Unit) contract state ↔
      (condition = true → contract.returns () state) ∧
        (condition = false → contract.stops assertion) := by
  cases condition <;> simp [require]

@[simp] theorem wp_ite (condition : Prop) [Decidable condition] {first second : Code ε φ σ α} :
    wp (if condition then first else second) contract state ↔
      (condition → wp first contract state) ∧ (¬ condition → wp second contract state) := by
  by_cases holds : condition <;> simp [holds]

@[simp] theorem wp_when {contract : Contract ε φ σ Unit} (condition : Bool)
    {code : Code ε φ σ Unit} :
    wp (.when condition code) contract state ↔
      (condition = true → wp code contract state) ∧
        (condition = false → contract.returns () state) := by
  cases condition <;> simp [Code.when]

/-- The rules that take a contract apart along the text of the code. -/
theorem wp_rules {ε φ σ : Type} :
    (∀ {α : Type} {contract : Contract ε φ σ α} {state : σ} (value : α),
      wp (Pure.pure value) contract state ↔ contract.returns value state) ∧
    (∀ {α β : Type} {first : Code ε φ σ α} {next : α → Code ε φ σ β} {contract : Contract ε φ σ β}
      {state : σ}, wp (first >>= next) contract state ↔
        wp first ⟨fun value after => wp (next value) contract after,
          contract.raises, contract.stops⟩ state) ∧
    (∀ {α : Type} {contract : Contract ε φ σ α} {state : σ} (view : σ → α),
      wp (read view) contract state ↔ contract.returns (view state) state) ∧
    (∀ {contract : Contract ε φ σ σ} {state : σ},
      wp get contract state ↔ contract.returns state state) ∧
    (∀ {contract : Contract ε φ σ Unit} {state : σ} (change : σ → σ),
      wp (update change) contract state ↔ contract.returns () (change state)) ∧
    (∀ {α : Type} {contract : Contract ε φ σ α} {state : σ} (exception : ε),
      wp (raise exception) contract state ↔ contract.raises exception state) ∧
    (∀ {α : Type} {contract : Contract ε φ σ α} {state : σ} (assertion : φ),
      wp (stop assertion) contract state ↔ contract.stops assertion) ∧
    (∀ {contract : Contract ε φ σ Unit} {state : σ} (condition : Bool) (assertion : φ),
      wp (require condition assertion) contract state ↔
        (condition = true → contract.returns () state) ∧
          (condition = false → contract.stops assertion)) ∧
    (∀ {α : Type} {contract : Contract ε φ σ α} {state : σ} (condition : Prop)
      [Decidable condition] {first second : Code ε φ σ α},
      wp (if condition then first else second) contract state ↔
        (condition → wp first contract state) ∧ (¬ condition → wp second contract state)) ∧
    (∀ {contract : Contract ε φ σ Unit} {state : σ} (condition : Bool) {code : Code ε φ σ Unit},
      wp (.when condition code) contract state ↔
        (condition = true → wp code contract state) ∧
          (condition = false → contract.returns () state)) :=
  ⟨wp_pure, wp_bind, wp_read, wp_get, wp_update, wp_raise, wp_stop, wp_require, wp_ite, wp_when⟩

theorem wp_mono_stops (met : wp code contract state)
    (returns : ∀ value after, contract.returns value after → weaker.returns value after)
    (raises : ∀ exception after, contract.raises exception after → weaker.raises exception after)
    (stops : ∀ assertion, contract.stops assertion → weaker.stops assertion) :
    wp code weaker state := by
  unfold wp at met ⊢
  cases ending : code state with
  | returned value after => rw [ending] at met; exact returns value after met
  | thrown exception after => rw [ending] at met; exact raises exception after met
  | stopped assertion => rw [ending] at met; exact stops assertion met

theorem wp_mono (met : wp code contract state)
    (returns : ∀ value after, contract.returns value after → weaker.returns value after)
    (raises : ∀ exception after, contract.raises exception after → weaker.raises exception after)
    [stops : ∀ assertion, Entails (contract.stops assertion) (weaker.stops assertion)] :
    wp code weaker state :=
  wp_mono_stops met returns raises fun assertion => (stops assertion).entails

/-- Only what is promised of a return is weakened. -/
theorem wp_imp (met : wp code contract state)
    (returns : ∀ value after, contract.returns value after → weaker.returns value after)
    [raises : ∀ exception after,
      Entails (contract.raises exception after) (weaker.raises exception after)]
    [stops : ∀ assertion, Entails (contract.stops assertion) (weaker.stops assertion)] :
    wp code weaker state :=
  wp_mono met returns fun exception after => (raises exception after).entails

/-- Code whose other endings are as promised may be followed by its returns alone. -/
theorem wp_then
    (met : wp code ⟨returns, contract.raises, contract.stops⟩ state)
    (next : ∀ value after, returns value after → contract.returns value after) :
    wp code contract state :=
  wp_imp met next

/-- Two contracts of one piece of code hold together. -/
theorem wp_and (met : wp code contract state)
    (alsoMet : wp code other state) :
    wp code ⟨fun value after => contract.returns value after ∧ other.returns value after,
      fun exception after => contract.raises exception after ∧ other.raises exception after,
      fun assertion => contract.stops assertion ∧ other.stops assertion⟩ state := by
  unfold wp at met alsoMet ⊢
  cases ending : code state <;> rw [ending] at met alsoMet <;> exact ⟨met, alsoMet⟩

theorem of_wp {conclusion : Prop} (met : wp code contract state)
    (returns : ∀ value after, contract.returns value after → conclusion)
    (raises : ∀ exception after, contract.raises exception after → conclusion)
    (stops : ∀ assertion, contract.stops assertion → conclusion) : conclusion := by
  unfold wp at met
  cases ending : code state <;> rw [ending] at met
  · exact returns _ _ met
  · exact raises _ _ met
  · exact stops _ met

/-- Iterating over a list keeps an invariant that speaks about the elements
still to be visited. -/
theorem wp_forEach {items : List ι} {body : ι → Code ε φ σ Unit}
    {contract : Contract ε φ σ Unit} (invariant : List ι → σ → Prop) (start : invariant items state)
    (each : ∀ item rest before, invariant (item :: rest) before →
      wp (body item) ⟨fun _ after => invariant rest after, contract.raises, contract.stops⟩ before)
    (finish : ∀ after, invariant [] after → contract.returns () after) :
    wp (forEach items body) contract state := by
  induction items generalizing state with
  | nil => exact finish state start
  | cons item rest ih =>
    simp only [forEach, wp_bind]
    refine wp_imp (each item rest state start) ?_
    intro _ after kept
    exact ih kept

end Rules

/-- A relation between states that a sequence of changes composes. -/
structure Motion (σ : Type) where
  moves : σ → σ → Prop
  refl : ∀ state, moves state state
  trans : ∀ {first second third}, moves first second → moves second third → moves first third

/-- The relation of code that leaves a view of the state alone. -/
def Motion.fixed (view : σ → β) : Motion σ where
  moves before after := view after = view before
  refl _ := rfl
  trans first second := second.trans first

def Motion.keeping (invariant : σ → Prop) : Motion σ where
  moves before after := invariant before → invariant after
  refl _ := id
  trans first second := fun holds => second (first holds)

def Motion.both (first second : Motion σ) : Motion σ where
  moves before after := first.moves before after ∧ second.moves before after
  refl state := ⟨first.refl state, second.refl state⟩
  trans earlier later :=
    ⟨first.trans earlier.1 later.1, second.trans earlier.2 later.2⟩

/-- However the code ends, it has moved the state along the relation. -/
def Follows (motion : Motion σ) (code : Code ε φ σ α) : Prop :=
  ∀ state, wp code (.keeping (motion.moves state)) state

namespace Follows

variable {motion : Motion σ}

theorem pure (value : α) : Follows motion (Pure.pure value : Code ε φ σ α) :=
  fun state => motion.refl state

theorem read (view : σ → α) : Follows motion (.read view : Code ε φ σ α) :=
  fun state => motion.refl state

theorem get : Follows motion (.get : Code ε φ σ σ) :=
  fun state => motion.refl state

theorem stop (assertion : φ) : Follows motion (.stop assertion : Code ε φ σ α) :=
  fun _ => trivial

theorem update (moved : ∀ state, motion.moves state (change state)) :
    Follows motion (.update change : Code ε φ σ Unit) :=
  moved

theorem require (condition : Bool) (assertion : φ) :
    Follows motion (.require condition assertion : Code ε φ σ Unit) := by
  intro state
  rw [wp_require]
  exact ⟨fun _ => motion.refl state, fun _ => trivial⟩

theorem after {code : Code ε φ σ α} (follows : Follows motion code)
    (reached : motion.moves first state) : wp code (.keeping (motion.moves first)) state :=
  wp_mono (follows state) (fun _ _ => motion.trans reached) (fun _ _ => motion.trans reached)

theorem bind {next : α → Code ε φ σ β}
    (start : Follows motion first) (rest : ∀ value, Follows motion (next value)) :
    Follows motion (first >>= next) := by
  intro state
  rw [wp_bind]
  exact wp_imp (start state) (fun value _ => (rest value).after)

theorem ite (condition : Prop) [Decidable condition] {first second : Code ε φ σ α}
    (whenTrue : condition → Follows motion first)
    (whenFalse : ¬ condition → Follows motion second) :
    Follows motion (if condition then first else second) := by
  by_cases holds : condition
  · rw [if_pos holds]
    exact whenTrue holds
  · rw [if_neg holds]
    exact whenFalse holds

theorem when {code : Code ε φ σ Unit} (follows : condition = true → Follows motion code) :
    Follows motion (.when condition code) :=
  ite _ follows (fun _ => pure ())

theorem forEach {body : ι → Code ε φ σ Unit}
    (each : ∀ item ∈ items, Follows motion (body item)) :
    Follows motion (.forEach items body) := by
  induction items with
  | nil => exact pure ()
  | cons item rest ih =>
    exact bind (each item (by simp)) (fun _ => ih (fun other member => each other (by simp [member])))

end Follows

/-- From every state with the invariant the code leads to one with the invariant,
or stops at an allowed assertion. -/
def Upholds (invariant : σ → Prop) (stops : φ → Prop := fun _ => True) (code : Code ε φ σ α) : Prop :=
  ∀ state, invariant state → wp code (.keeping invariant stops) state

namespace Upholds

variable {invariant : σ → Prop} {stops : φ → Prop}

theorem pure (value : α) : Upholds invariant stops (Pure.pure value : Code ε φ σ α) :=
  fun _ => id

theorem get : Upholds invariant stops (.get : Code ε φ σ σ) := fun _ => id

theorem update (kept : ∀ state, invariant state → invariant (change state)) :
    Upholds invariant stops (.update change : Code ε φ σ Unit) :=
  kept

theorem following {next : α → Code ε φ σ β}
    (rest : ∀ value, Upholds invariant stops (next value))
    (met : wp first (.keeping invariant stops) state) :
    wp (first >>= next) (.keeping invariant stops) state := by
  rw [wp_bind]
  exact wp_imp met (fun value after kept => rest value after kept)

theorem bind {next : α → Code ε φ σ β}
    (start : Upholds invariant stops first) (rest : ∀ value, Upholds invariant stops (next value)) :
    Upholds invariant stops (first >>= next) := by
  intro state holds
  exact following rest (start state holds)

theorem ite (condition : Prop) [Decidable condition] {first second : Code ε φ σ α}
    (whenTrue : condition → Upholds invariant stops first)
    (whenFalse : ¬ condition → Upholds invariant stops second) :
    Upholds invariant stops (if condition then first else second) := by
  by_cases holds : condition
  · rw [if_pos holds]
    exact whenTrue holds
  · rw [if_neg holds]
    exact whenFalse holds

theorem when {code : Code ε φ σ Unit} (upholds : condition = true → Upholds invariant stops code) :
    Upholds invariant stops (.when condition code) :=
  ite _ upholds (fun _ => pure ())

end Upholds

end Code

end YdbSdk.Control
