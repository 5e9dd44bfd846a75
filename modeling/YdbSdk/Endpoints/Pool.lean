import YdbSdk.Endpoints.Election

namespace YdbSdk.Endpoints

open Control Data List

/-! # The endpoint pool

`TEndpointPool` turns a discovery result into records of the elector.  The priority of a record is
its load factor as an integer; endpoints that the balancing policy does not prefer are shifted by
the greatest load, and the local and the foreign ones are found again by their priorities.  Load
factors are exact numbers here. -/

inductive PileState where
  | unspecified
  | primary
  | promoted
  | synchronized
  | notSynchronized
  | suspended
  | disconnected
  | inactive
deriving DecidableEq

inductive BalancingPolicy where
  | useAllNodes
  | usePreferableLocation (location : Option (List Char))
  | usePreferablePileState (pileState : PileState)

structure EndpointInfo where
  address : List Char := []
  port : Nat := 0
  loadFactor : Rat := 0
  ssl : Bool := false
  location : List Char := []
  nodeId : Nat := 0
  ipV4 : List (List Char) := []
  ipV6 : List (List Char) := []
  sslTargetNameOverride : List Char := []
  bridgePileName : List Char := []

structure ListEndpointsResult where
  endpoints : List EndpointInfo := []
  selfLocation : List Char := []
  pileStates : List (List Char × PileState) := []

def loadMax : Rat := 100

def loadMin : Rat := -100

def multiplicator : Rat := 10

def localityShift : Int := 1000

/-- The conversion of a floating-point number to an integer. -/
def truncate (number : Rat) : Int :=
  if 0 ≤ number then number.floor else -(-number).floor

def clampedLoad (load : Rat) : Rat :=
  let atLeast := if loadMin < load then load else loadMin
  if atLeast < loadMax then atLeast else loadMax

/-- Of two states of one pile the later one counts. -/
def isPreferredEndpoint (policy : BalancingPolicy) (result : ListEndpointsResult)
    (endpoint : EndpointInfo) : Bool :=
  match policy with
  | .useAllNodes => true
  | .usePreferableLocation location => endpoint.location == location.getD result.selfLocation
  | .usePreferablePileState pileState =>
    match result.pileStates.reverse.find? fun pile => pile.1 = endpoint.bridgePileName with
    | some pile => pile.2 == pileState
    | none => true

def priorityOf (policy : BalancingPolicy) (result : ListEndpointsResult) (endpoint : EndpointInfo) : Int :=
  let loadFactor := truncate (multiplicator * clampedLoad endpoint.loadFactor)
  if isPreferredEndpoint policy result endpoint then loadFactor else loadFactor + localityShift

def withPort (endpoint : EndpointInfo) (host : List Char) : List Char :=
  host ++ ':' :: Nat.toDigits 10 endpoint.port

def bracketed (addr : List Char) : List Char :=
  (if addr.head? = some '[' then [] else ['[']) ++ addr ++
    if addr.getLast? = some ']' then [] else [']']

def ipSslTargetNameOverride (endpoint : EndpointInfo) : List Char :=
  if endpoint.sslTargetNameOverride ≠ [] then endpoint.sslTargetNameOverride
  else if endpoint.ssl then endpoint.address else []

/-- One record for each address, or one for the name when there is none. -/
def recordsOf (endpoint : EndpointInfo) (priority : Int) : List EndpointRecord :=
  let record (name ssl : List Char) : EndpointRecord :=
    ⟨withPort endpoint name, priority, ssl, endpoint.nodeId, endpoint.location⟩
  let byAddress :=
    (endpoint.ipV6.filter (· ≠ [])).map (fun addr => ['i', 'p', 'v', '6', ':'] ++ bracketed addr) ++
      (endpoint.ipV4.filter (· ≠ [])).map (fun addr => ['i', 'p', 'v', '4', ':'] ++ addr)
  if byAddress = [] then [record endpoint.address endpoint.sslTargetNameOverride]
  else byAddress.map fun name => record name (ipSslTargetNameOverride endpoint)

def discoveryRecords (policy : BalancingPolicy) (result : ListEndpointsResult) : List EndpointRecord :=
  result.endpoints.flatMap fun endpoint => recordsOf endpoint (priorityOf policy result endpoint)

def State.between (state : State) (minPriority maxPriority : Int) : List EndpointRecord :=
  (state.records.dropWhile fun record => record.priority < minPriority).takeWhile
    fun record => record.priority ≤ maxPriority

def forEachLocalEndpoint (state : State) (tag : Nat) : Option (List (Nat × Nat)) :=
  forEachEndpoint state 0 (localityShift - 1) tag

def forEachForeignEndpoint (state : State) (tag : Nat) : Option (List (Nat × Nat)) :=
  forEachEndpoint state localityShift (pessimizedPriority - 1) tag

/-! ## After a discovery -/

def Event.isUpdate : Event → Bool
  | .setNewState _ _ => true
  | _ => false

/-- The elector in any run, when `result` is the last discovery it took. -/
def Discovered (policy : BalancingPolicy) (result : ListEndpointsResult) (state : State) : Prop :=
  ∃ before sorted after, Reachable react Possible .initial before ∧
    Possible before (.setNewState (discoveryRecords policy result) sorted) ∧
    (react (.setNewState (discoveryRecords policy result) sorted)).step before = .ok after ∧
    Reachable react (fun state event => Possible state event ∧ event.isUpdate = false) after state

variable {policy : BalancingPolicy} {result : ListEndpointsResult} {state : State}
  {record : EndpointRecord} {endpoint : EndpointInfo}

theorem reachable_known (reached : Reachable react Possible .initial state) : Known state :=
  (reached.invariant .initial fun _ _ => react_sound).1.1

theorem Discovered.invariant {invariant : State → Prop} (discovered : Discovered policy result state)
    (entered : ∀ before sorted, SortedAs (uniqRec (discoveryRecords policy result)) sorted →
      invariant (updated (discoveryRecords policy result) sorted before))
    (kept : ∀ before event, Known before → invariant before → Possible before event →
      event.isUpdate = false →
      (react event).wp (.keeping (fun after => Known after ∧ invariant after) fun _ => True) before) :
    Known state ∧ invariant state := by
  obtain ⟨before, sorted, after, reached, order, taken, since⟩ := discovered
  have known := reachable_known reached
  have ended : (react (.setNewState (discoveryRecords policy result) sorted)).wp
      (.keeping (· = updated (discoveryRecords policy result) sorted before) fun _ => True) before := by
    simp only [react, Code.wp_rules, setNewState_wp known order]
  rw [Code.wp_step ended taken] at since
  exact since.invariant ⟨known.updated order, entered before sorted order⟩
    fun earlier event holds allowed => kept earlier event holds.1 holds.2 allowed.1 allowed.2

theorem Discovered.keeps {invariant : State → Prop}
    (localised : ∀ before after, after.outside = before.outside → invariant before → invariant after)
    (resilient : Resilient fun state => Known state ∧ invariant state)
    (discovered : Discovered policy result state)
    (entered : ∀ before sorted, SortedAs (uniqRec (discoveryRecords policy result)) sorted →
      invariant (updated (discoveryRecords policy result) sorted before)) :
    Known state ∧ invariant state :=
  discovered.invariant entered fun before event known holds possible noUpdate =>
    react_keeping localised resilient known holds possible fun records sorted update => by
      subst update
      contradiction

theorem exists_discovered {goal : State → Prop} (events : List Event)
    (ran : SortedAs (uniqRec (discoveryRecords policy result)) (discoveryRecords policy result) ∧
      ∃ after, (react (.setNewState (discoveryRecords policy result) (discoveryRecords policy result))).step
          .initial = .ok after ∧
        Permitted react (fun state event => Possible state event ∧ event.isUpdate = false) after events ∧
        ∃ state, run react after events = .ok state ∧ goal state) :
    ∃ state, Discovered policy result state ∧ goal state := by
  obtain ⟨order, after, taken, ends⟩ := ran
  obtain ⟨state, since, holds⟩ := exists_reachable events ends
  exact ⟨state, ⟨.initial, _, after, .start, order, taken, since⟩, holds⟩

/-! ## Going over the records -/

theorem mem_takeWhile_priority {records : List EndpointRecord}
    (sorted : records.Pairwise fun first second => first.priority ≤ second.priority) :
    record ∈ records.takeWhile (fun record => record.priority ≤ maxPriority) ↔
      record ∈ records ∧ record.priority ≤ maxPriority := by
  induction records with
  | nil => simp
  | cons first rest ih =>
    obtain ⟨below, restSorted⟩ := pairwise_cons.mp sorted
    by_cases fits : first.priority ≤ maxPriority
    · rw [takeWhile_cons_of_pos (by simpa using fits)]
      grind
    · rw [takeWhile_cons_of_neg (by simpa using fits)]
      grind

theorem mem_dropWhile_priority {records : List EndpointRecord}
    (sorted : records.Pairwise fun first second => first.priority ≤ second.priority) :
    record ∈ records.dropWhile (fun record => record.priority < minPriority) ↔
      record ∈ records ∧ minPriority ≤ record.priority := by
  induction records with
  | nil => simp
  | cons first rest ih =>
    obtain ⟨below, restSorted⟩ := pairwise_cons.mp sorted
    by_cases less : first.priority < minPriority
    · rw [dropWhile_cons_of_pos (by simpa using less)]
      grind
    · rw [dropWhile_cons_of_neg (by simpa using less)]
      grind

theorem Ranked.mem_between (ranked : Ranked state) (minPriority maxPriority : Int) :
    record ∈ state.between minPriority maxPriority ↔
      record ∈ state.records ∧ minPriority ≤ record.priority ∧ record.priority ≤ maxPriority := by
  have rest : (state.records.dropWhile fun record => record.priority < minPriority).Pairwise
      fun first second => first.priority ≤ second.priority :=
    ranked.sorted.sublist (dropWhile_sublist _)
  rw [State.between, mem_takeWhile_priority rest, mem_dropWhile_priority ranked.sorted, and_assoc]

theorem forEachEndpoint_nodes
    (went : forEachEndpoint state minPriority maxPriority tag = some visits) :
    visits.map Prod.fst = (state.between minPriority maxPriority).map EndpointRecord.nodeId := by
  rw [forEachEndpoint, ← State.between] at went
  generalize state.between minPriority maxPriority = records at went
  induction records generalizing visits with
  | nil =>
    cases went
    rfl
  | cons first rest ih =>
    rw [mapM_cons, Option.bind_eq_bind, Option.bind_eq_some_iff] at went
    obtain ⟨visit, found, went⟩ := went
    rw [Option.bind_eq_bind, Option.bind_eq_some_iff] at went
    obtain ⟨others, rested, all⟩ := went
    cases all
    obtain ⟨entry, -, rfl⟩ := Option.map_eq_some_iff.mp found
    rw [map_cons, ih rested]
    split <;> rfl

/-! ## The endpoint of a record -/

/-- The endpoint whose record of the address was taken: the first that has it. -/
def originOf (result : ListEndpointsResult) (record : EndpointRecord) : Option EndpointInfo :=
  result.endpoints.find? fun endpoint =>
    record.endpoint ∈ (recordsOf endpoint 0).map EndpointRecord.endpoint

theorem recordsOf_endpoints (endpoint : EndpointInfo) (priority : Int) :
    (recordsOf endpoint priority).map EndpointRecord.endpoint =
      (recordsOf endpoint 0).map EndpointRecord.endpoint := by
  unfold recordsOf
  dsimp only
  split
  · rfl
  · rw [map_map, map_map]
    rfl

theorem recordsOf_priority (member : record ∈ recordsOf endpoint priority) :
    record.priority = priority := by
  unfold recordsOf at member
  dsimp only at member
  split at member
  · rw [mem_singleton.mp member]
  · obtain ⟨name, -, rfl⟩ := mem_map.mp member
    rfl

theorem find_of_mem_uniqueFrom
    (member : record ∈ uniqueFrom index records) :
    records.find? (fun other => other.endpoint = record.endpoint) = some record := by
  induction records generalizing index with
  | nil => contradiction
  | cons first rest ih =>
    have new := (mem_uniqueFrom member).2
    rw [uniqueFrom] at member
    split at member
    case isTrue known =>
        have differs : first.endpoint ≠ record.endpoint := fun same => new (same ▸ known)
        rw [List.find?_cons_of_neg (by simpa using differs)]
        exact ih member
    case isFalse =>
        rcases mem_cons.mp member with rfl | later
        · rw [List.find?_cons_of_pos (by simp)]
        · have differs : first.endpoint ≠ record.endpoint :=
            fun same => (mem_uniqueFrom later).2 (same ▸ mem_cons_self)
          rw [List.find?_cons_of_neg (by simpa using differs)]
          exact ih later

theorem originOf_unique (member : record ∈ uniqRec (discoveryRecords policy result)) :
    ∃ endpoint, originOf result record = some endpoint ∧
      record.priority = priorityOf policy result endpoint := by
  have found := find_of_mem_uniqueFrom member
  rw [discoveryRecords, List.find?_flatMap, List.findSome?_eq_some_iff] at found
  obtain ⟨earlier, endpoint, later, all, here, before⟩ := found
  have inside := mem_of_find?_eq_some here
  refine ⟨endpoint, ?_, recordsOf_priority inside⟩
  rw [originOf, all, List.find?_eq_some_iff_append]
  refine ⟨?_, earlier, later, rfl, fun other listed => ?_⟩
  · rw [← recordsOf_endpoints endpoint (priorityOf policy result endpoint)]
    exact decide_eq_true (mem_map_of_mem inside)
  · have none := List.find?_eq_none.mp (before other listed)
    rw [← recordsOf_endpoints other (priorityOf policy result other), Bool.not_eq_true',
      decide_eq_false_iff_not]
    rintro inside
    obtain ⟨first, taken, same⟩ := mem_map.mp inside
    exact none first taken (decide_eq_true same)

/-! ## The integer load -/

theorem truncate_nonneg (number : Rat) : 0 ≤ truncate number ↔ -1 < number := by
  unfold truncate
  split
  · rename_i positive
    have floor : (0 : Int) ≤ number.floor := Rat.le_floor_iff.mpr (by exact_mod_cast positive)
    have above : -1 < number := by linarith
    simp [floor, above]
  · have floor : (-number).floor ≤ 0 ↔ -number < 1 := by
      rw [← Int.lt_add_one_iff, ← not_le, Rat.le_floor_iff]
      norm_num
    constructor
    · intro fits
      have := floor.mp (by omega)
      linarith
    · intro above
      have := floor.mpr (by linarith)
      omega

theorem truncate_lt (positive : 0 < bound) :
    truncate number < bound ↔ number < bound := by
  unfold truncate
  split
  · rw [← not_le, Rat.le_floor_iff, not_le]
  · have floor : (0 : Int) ≤ (-number).floor := Rat.le_floor_iff.mpr (by push_cast; linarith)
    have below : number < bound := by
      have : (0 : Rat) < bound := by exact_mod_cast positive
      linarith
    simp [below]
    omega

theorem neg_le_truncate {bound : Int} (positive : 0 ≤ bound) (above : -(bound : Rat) ≤ number) :
    -bound ≤ truncate number := by
  unfold truncate
  split
  · rename_i floor
    have positiveFloor : (0 : Int) ≤ number.floor := Rat.le_floor_iff.mpr (by exact_mod_cast floor)
    omega
  · have floor : (-number).floor ≤ bound := by
      have le : ((-number).floor : Rat) ≤ -number := Rat.floor_le _
      have : ((-number).floor : Rat) ≤ bound := by linarith
      exact_mod_cast this
    omega

/-- The loads of discovery lie between -100 and 100; those above -0.1 become non-negative, and the
greatest one becomes the shift itself. -/
theorem loadFactor_bounds (load : Rat) :
    -localityShift ≤ truncate (multiplicator * clampedLoad load) ∧
      truncate (multiplicator * clampedLoad load) ≤ localityShift ∧
      (0 ≤ truncate (multiplicator * clampedLoad load) ↔ -1 / 10 < load) ∧
      (truncate (multiplicator * clampedLoad load) < localityShift ↔ load < 100) := by
  have clamped : clampedLoad load = if load ≤ -100 then -100 else if load < 100 then load else 100 := by
    unfold clampedLoad loadMin loadMax
    grind
  have least : -((1000 : Int) : Rat) ≤ multiplicator * clampedLoad load := by
    rw [clamped, multiplicator]
    push_cast
    grind
  have most : multiplicator * clampedLoad load < ((1001 : Int) : Rat) := by
    rw [clamped, multiplicator]
    push_cast
    grind
  have below := (truncate_lt (by decide)).mpr most
  refine ⟨neg_le_truncate (by decide) least, Int.lt_add_one_iff.mp below, ?_, ?_⟩
  · rw [truncate_nonneg, clamped, multiplicator]
    grind
  · rw [truncate_lt (by decide), clamped, multiplicator, localityShift]
    push_cast
    grind

/-! ## Local and foreign endpoints -/

def State.localRecords (state : State) : List EndpointRecord := state.between 0 (localityShift - 1)

def State.foreignRecords (state : State) : List EndpointRecord :=
  state.between localityShift (pessimizedPriority - 1)

/-- Of the endpoints that are not pessimized the preferred ones are local and the others foreign. -/
def Separated (policy : BalancingPolicy) (result : ListEndpointsResult) (state : State) : Prop :=
  ∀ record ∈ state.records, record.priority ≠ pessimizedPriority →
    ∃ endpoint, originOf result record = some endpoint ∧
      (record ∈ state.localRecords ↔ isPreferredEndpoint policy result endpoint = true) ∧
      (record ∈ state.foreignRecords ↔ isPreferredEndpoint policy result endpoint = false)

def LoadsFit (policy : BalancingPolicy) (result : ListEndpointsResult) (state : State) : Prop :=
  ∀ record ∈ state.records, record.priority ≠ pessimizedPriority →
    ∀ endpoint ∈ originOf result record, -1 / 10 < endpoint.loadFactor ∧
      (isPreferredEndpoint policy result endpoint = true → endpoint.loadFactor < 100)

instance : Decidable (LoadsFit policy result state) := by
  unfold LoadsFit
  infer_instance

theorem Discovered.reachable (discovered : Discovered policy result state) :
    Reachable react Possible .initial state := by
  obtain ⟨before, sorted, after, reached, order, taken, since⟩ := discovered
  exact (Reachable.step _ reached order taken).trans (since.mono fun _ _ allowed => allowed.1)

theorem react_sound_ranked {event : Event} (holds : Sound state ∧ Ranked state)
    (possible : Possible state event) :
    (react event).wp (.keeping (fun after => Sound after ∧ Ranked after) fun _ => True) state :=
  Code.wp_mono (Code.wp_and (react_sound holds.1 possible)
    (react_ranked holds.1.1.1 holds.2 possible)) (fun _ _ done => done) fun _ _ done => done

theorem reachable_ranked (reached : Reachable react Possible .initial state) : Ranked state :=
  (reached.invariant ⟨.initial, .nil, rfl⟩ fun _ _ => react_sound_ranked).2

/-- The records that are not pessimized are those of the discovery. -/
def AsDiscovered (policy : BalancingPolicy) (result : ListEndpointsResult) (state : State) : Prop :=
  ∀ record ∈ state.records, record.priority ≠ pessimizedPriority →
    record ∈ uniqRec (discoveryRecords policy result)

theorem resilient_asDiscovered : Resilient fun state => Known state ∧ AsDiscovered policy result state where
  changes := by
    intro state endpoint candidate holds found
    refine ⟨holds.1.pessimized found, fun record inside better => ?_⟩
    rcases (mem_pessimizeFirst holds.1.unique found record).mp inside with ⟨old, -⟩ | rfl
    · exact holds.2 record old better
    · exact absurd rfl better
  sorts holds order :=
    ⟨holds.1.perm order _, fun record inside => holds.2 record (order.mem_iff.mp inside)⟩

theorem Discovered.asDiscovered (discovered : Discovered policy result state) :
    AsDiscovered policy result state := by
  refine (discovered.keeps ?_ resilient_asDiscovered ?_).2
  · intro before after same holds
    have records : after.records = before.records := congrArg (fun part => part.1.1) same
    rw [AsDiscovered, records]
    exact holds
  · intro before sorted order record inside _
    rw [updated_records] at inside
    exact order.1.mem_iff.mp inside

theorem separated_iff (discovered : Discovered policy result state) :
    Separated policy result state ↔ LoadsFit policy result state := by
  have ranked := reachable_ranked discovered.reachable
  refine forall_congr' fun record => forall_congr' fun member => forall_congr' fun better => ?_
  obtain ⟨endpoint, origin, priority⟩ := originOf_unique (discovered.asDiscovered record member better)
  obtain ⟨least, most, positive, below⟩ := loadFactor_bounds endpoint.loadFactor
  simp only [origin, Option.mem_def, Option.some.injEq, exists_eq_left', forall_eq', State.localRecords,
    State.foreignRecords, ranked.mem_between, priority, priorityOf]
  cases isPreferredEndpoint policy result endpoint with
  | true =>
    grind
  | false =>
    simp only [localityShift, pessimizedPriority] at *
    grind

/-- The local and the foreign enumeration go over the records of their priorities, and divide the
endpoints by preference just when every load is above -0.1, and below 100 for a preferred one. -/
theorem localities_exact (discovered : Discovered policy result state) :
    (∀ tag, ∃ locals foreigns, forEachLocalEndpoint state tag = some locals ∧
      locals.map Prod.fst = state.localRecords.map EndpointRecord.nodeId ∧
      forEachForeignEndpoint state tag = some foreigns ∧
      foreigns.map Prod.fst = state.foreignRecords.map EndpointRecord.nodeId) ∧
    (Separated policy result state ↔ LoadsFit policy result state) := by
  refine ⟨fun tag => ?_, separated_iff discovered⟩
  have finds := fun least most => Option.isSome_iff_exists.mp
    (forEachEndpoint_finds discovered.reachable least most tag)
  obtain ⟨locals, wentLocal⟩ := finds 0 (localityShift - 1)
  obtain ⟨foreigns, wentForeign⟩ := finds localityShift (pessimizedPriority - 1)
  exact ⟨locals, foreigns, wentLocal, forEachEndpoint_nodes wentLocal, wentForeign,
    forEachEndpoint_nodes wentForeign⟩

def resultOf (endpoints : List (Rat × List Char)) : ListEndpointsResult where
  endpoints := endpoints.mapIdx fun index endpoint =>
    { address := .replicate index 'a', loadFactor := endpoint.1, location := endpoint.2, nodeId := index + 1 }
  selfLocation := ['x']

theorem localities_exact_two :
    ∃ state, Discovered (.usePreferableLocation none) (resultOf [(99, ['x']), (-1 / 20, ['y'])]) state ∧
      state.records.length = 2 ∧
      Separated (.usePreferableLocation none) (resultOf [(99, ['x']), (-1 / 20, ['y'])]) state := by
  obtain ⟨state, discovered, two, fit⟩ : ∃ state,
      Discovered (.usePreferableLocation none) (resultOf [(99, ['x']), (-1 / 20, ['y'])]) state ∧
      state.records.length = 2 ∧
      LoadsFit (.usePreferableLocation none) (resultOf [(99, ['x']), (-1 / 20, ['y'])]) state :=
    exists_discovered [] (by decide +kernel)
  exact ⟨state, discovered, two, (localities_exact discovered).2.mpr fit⟩

/-- A preferred endpoint with a load of -1 has a priority below 0 and is not local; one with a load
of 100 has the priority of the shift and is foreign. -/
theorem preferred_load_not_local :
    (∃ state, Discovered .useAllNodes (resultOf [(-1, [])]) state ∧
      state.localRecords = [] ∧ ¬ Separated .useAllNodes (resultOf [(-1, [])]) state) ∧
    ∃ state, Discovered .useAllNodes (resultOf [(100, [])]) state ∧
      state.foreignRecords = state.records ∧ ¬ Separated .useAllNodes (resultOf [(100, [])]) state := by
  constructor
  · obtain ⟨state, discovered, none, unfit⟩ : ∃ state, Discovered .useAllNodes (resultOf [(-1, [])]) state ∧
        state.localRecords = [] ∧ ¬ LoadsFit .useAllNodes (resultOf [(-1, [])]) state :=
      exists_discovered [] (by decide +kernel)
    exact ⟨state, discovered, none, (separated_iff discovered).not.mpr unfit⟩
  · obtain ⟨state, discovered, all, unfit⟩ : ∃ state, Discovered .useAllNodes (resultOf [(100, [])]) state ∧
        state.foreignRecords = state.records ∧ ¬ LoadsFit .useAllNodes (resultOf [(100, [])]) state :=
      exists_discovered [] (by decide +kernel)
    exact ⟨state, discovered, all, (separated_iff discovered).not.mpr unfit⟩

end YdbSdk.Endpoints
