import YdbSdk.Endpoints.Pool

namespace YdbSdk.Endpoints

open Control Data List

/-! # The pessimization ratio

Every endpoint moved to the end adds the integer part of its share to the ratio that the periodic
task compares with its threshold, so that the parts cut off add up. -/

def State.pessimized (state : State) : Nat :=
  state.records.countP fun record => record.priority = pessimizedPriority

def pessimizationDiscoveryThreshold : Nat := 50

/-- Whether the periodic task asks for a discovery; `expiration` says that the last one is old. -/
def periodicDiscovery (expiration : Bool) (state : State) : Bool :=
  decide (pessimizationDiscoveryThreshold < state.pessimizationRatio) || expiration

def Rated (state : State) : Prop :=
  state.pessimizationRatio = state.pessimized * (100 / state.records.length)

variable {policy : BalancingPolicy} {result : ListEndpointsResult} {state : State}

theorem countP_pessimizeFirst
    (found : (records.find? (isCandidate endpoint)).isSome = true) :
    (pessimizeFirst endpoint records).countP (fun record => record.priority = pessimizedPriority) =
      records.countP (fun record => record.priority = pessimizedPriority) + 1 := by
  induction records with
  | nil => contradiction
  | cons first rest ih =>
    rw [pessimizeFirst]
    by_cases here : isCandidate endpoint first = true
    · have better := (isCandidate_iff.mp here).2
      rw [if_pos here, countP_cons_of_pos (by simp [EndpointRecord.pessimized]),
        countP_cons_of_neg (by simpa using better)]
    · rw [List.find?_cons_of_neg here] at found
      rw [if_neg here, countP_cons, countP_cons, ih found]
      omega

theorem resilient_rated : Resilient fun state => Known state ∧ Rated state where
  changes := by
    intro state endpoint candidate holds found
    obtain ⟨known, rated⟩ := holds
    refine ⟨known.pessimized found, ?_⟩
    have length : (pessimizeFirst endpoint state.records).length = state.records.length := by
      have names := congrArg List.length
        (pessimizeFirst_map endpoint state.records EndpointRecord.endpoint fun _ => rfl)
      rwa [length_map, length_map] at names
    have some : 0 < state.records.length :=
      length_pos_of_mem (mem_of_find?_eq_some found)
    change (state.pessimizationRatio * state.records.length + 100) / state.records.length =
      (pessimizeFirst endpoint state.records).countP _ * (100 / (pessimizeFirst endpoint state.records).length)
    rw [length, countP_pessimizeFirst (by rw [found]; rfl), rated, Nat.mul_comm _ state.records.length,
      Nat.mul_add_div some, Nat.succ_mul]
    rfl
  sorts holds order := ⟨holds.1.perm order _, by
    rw [Rated, State.pessimized, order.countP_eq, order.length_eq]
    exact holds.2⟩

theorem priorityOf_lt (policy : BalancingPolicy) (result : ListEndpointsResult) (endpoint : EndpointInfo) :
    priorityOf policy result endpoint < pessimizedPriority := by
  have bounds := loadFactor_bounds endpoint.loadFactor
  unfold priorityOf
  simp only [localityShift, pessimizedPriority] at *
  split <;> omega

theorem Discovered.rated (discovered : Discovered policy result state) : Rated state := by
  refine (discovered.keeps ?_ resilient_rated ?_).2
  · intro before after same rated
    have records : after.records = before.records := congrArg (fun part => part.1.1) same
    have ratio : after.pessimizationRatio = before.pessimizationRatio := congrArg (fun part => part.2.2) same
    rw [Rated, State.pessimized, records, ratio]
    exact rated
  · intro before sorted order
    have none : sorted.countP (fun record => record.priority = pessimizedPriority) = 0 := by
      rw [countP_eq_zero]
      intro record member pessimized
      obtain ⟨endpoint, -, priority⟩ := originOf_unique (order.1.mem_iff.mp member)
      have below := priorityOf_lt policy result endpoint
      have equal := of_decide_eq_true pessimized
      omega
    rw [Rated, State.pessimized, updated_records, none, Nat.zero_mul]
    rfl

def nodesResult (first others : Nat) : ListEndpointsResult where
  endpoints := (List.range (first + others)).map fun index =>
    { address := .replicate index 'a', nodeId := if index < first then 1 else 2 }

def nodesRecords (first others : Nat) : List EndpointRecord :=
  discoveryRecords .useAllNodes (nodesResult first others)

def pessimizing (first others : Nat) : Event :=
  .pessimizeNode 1 ((nodesRecords first others).drop first ++
    ((nodesRecords first others).take first).map .pessimized)

end YdbSdk.Endpoints
