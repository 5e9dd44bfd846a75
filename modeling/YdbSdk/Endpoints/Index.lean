import YdbSdk.Endpoints.Elector

namespace YdbSdk.Endpoints

open Control Data Code List

/-! # The node index

Records leave and enter the containers by their address, the index is keyed by the node.  An
address that moves to another node is neither left out nor new, so the entry of the node it was on
stays.  While every node that disappears loses an address, the index shows the current records. -/

def State.shown (state : State) (nodeId : Nat) : Option EndpointRecord :=
  (state.knownEndpointsByNodeId.find nodeId).map KnownEndpoint.record

def OnNode (records : List EndpointRecord) (nodeId : Nat) : Prop :=
  ∃ record ∈ records, record.nodeId = nodeId

instance (records : List EndpointRecord) (nodeId : Nat) : Decidable (OnNode records nodeId) :=
  inferInstanceAs (Decidable (∃ record ∈ records, _))

/-- A node is found if and only if a current record is on it, and what is found is such a
record. -/
def IndexExact (state : State) : Prop :=
  ∀ nodeId, ((state.shown nodeId).isSome = true ↔ OnNode state.records nodeId) ∧
    ∀ record, state.shown nodeId = some record →
      record ∈ state.records ∧ record.nodeId = nodeId

def Unique (records : List EndpointRecord) : Prop :=
  records.Pairwise fun first second => first.endpoint ≠ second.endpoint

theorem unique_iff : Unique records ↔ (records.map EndpointRecord.endpoint).Nodup :=
  pairwise_map.symm

theorem Unique.eq (unique : Unique records) (here : first ∈ records)
    (there : second ∈ records) (same : first.endpoint = second.endpoint) : first = second :=
  inj_on_of_nodup_map (unique_iff.mp unique) here there same

theorem Unique.perm (unique : Unique records) (order : sorted.Perm records) : Unique sorted :=
  (order.pairwise_iff fun different => different.symm).mpr unique

theorem mem_uniqueFrom (member : record ∈ uniqueFrom index records) :
    record ∈ records ∧ record.endpoint ∉ index := by
  induction records generalizing index with
  | nil => contradiction
  | cons first rest ih =>
    rw [uniqueFrom] at member
    split at member
    case isTrue => exact ⟨mem_cons_of_mem _ (ih member).1, (ih member).2⟩
    case isFalse new =>
        rcases mem_cons.mp member with rfl | later
        · exact ⟨mem_cons_self, new⟩
        · have rest := ih later
          exact ⟨mem_cons_of_mem _ rest.1, fun known => rest.2 (mem_cons_of_mem _ known)⟩

theorem exists_uniqueFrom {record : EndpointRecord} {index : List (List Char)}
    {records : List EndpointRecord} (member : record ∈ records) (new : record.endpoint ∉ index) :
    ∃ first ∈ uniqueFrom index records, first.endpoint = record.endpoint := by
  induction records generalizing index with
  | nil => contradiction
  | cons first rest ih =>
    rw [uniqueFrom]
    by_cases same : first.endpoint = record.endpoint
    · rw [if_neg (same ▸ new)]
      exact ⟨first, mem_cons_self, same⟩
    · have later : record ∈ rest := mem_of_ne_of_mem (fun equal => same (equal ▸ rfl)) member
      split
      case isTrue => exact ih later new
      case isFalse =>
          have stillNew : record.endpoint ∉ first.endpoint :: index := by
            simp [new, Ne.symm same]
          obtain ⟨found, inside, equal⟩ := ih later stillNew
          exact ⟨found, mem_cons_of_mem _ inside, equal⟩

theorem unique_uniqueFrom (index : List (List Char)) (records : List EndpointRecord) :
    Unique (uniqueFrom index records) := by
  induction records generalizing index with
  | nil => exact .nil
  | cons first rest ih =>
    rw [uniqueFrom]
    split
    case isTrue => exact ih index
    case isFalse =>
        apply List.Pairwise.cons _ (ih _)
        intro other member same
        exact (mem_uniqueFrom member).2 (by simp [same])

section Update

variable {state : State}

def removeRecords (gone : List EndpointRecord) (state : State) : State :=
  gone.foldl removeRecord state

def addRecords (added : List EndpointRecord) (state : State) : State :=
  added.foldl addRecord state

theorem removeRecords_cons (record : EndpointRecord) (gone : List EndpointRecord) :
    removeRecords (record :: gone) state = removeRecords gone (removeRecord state record) := rfl

theorem addRecords_cons (record : EndpointRecord) (added : List EndpointRecord) :
    addRecords (record :: added) state = addRecords added (addRecord state record) := rfl

@[simp] theorem removeRecords_index (gone : List EndpointRecord) :
    (removeRecords gone state).knownEndpointsByNodeId =
      state.knownEndpointsByNodeId.eraseAll (gone.map EndpointRecord.nodeId) := by
  induction gone generalizing state with
  | nil => rfl
  | cons record gone ih => exact ih

@[simp] theorem removeRecords_known (gone : List EndpointRecord) :
    (removeRecords gone state).knownEndpoints =
      state.knownEndpoints.eraseAll (gone.map EndpointRecord.endpoint) := by
  induction gone generalizing state with
  | nil => rfl
  | cons record gone ih => exact ih

def State.rest (state : State) :
    List EndpointRecord × Int × Nat × List ObjRegistry × Assoc Nat Nat × List Nat :=
  (state.records, state.bestK, state.pessimizationRatio, state.registries, state.objRegistry,
    state.told)

@[simp] theorem removeRecords_rest (gone : List EndpointRecord) :
    (removeRecords gone state).rest = state.rest := by
  induction gone generalizing state with
  | nil => rfl
  | cons record gone ih => exact ih

theorem mem_removeRecord_notify (record : EndpointRecord) (registry : Nat) :
    registry ∈ (removeRecord state record).notifyRemoved ↔
      registry ∈ state.notifyRemoved ∨
        ∃ entry, state.knownEndpointsByNodeId.find record.nodeId = some entry ∧
          ∃ tag, (tag, registry) ∈ entry.taggedObjs := by
  rw [removeRecord]
  cases found : state.knownEndpointsByNodeId.find record.nodeId with
  | none => simp
  | some entry => simp

theorem mem_removeRecords_notify (gone : List EndpointRecord) (registry : Nat) :
    registry ∈ (removeRecords gone state).notifyRemoved ↔
      registry ∈ state.notifyRemoved ∨ ∃ nodeId entry, OnNode gone nodeId ∧
        state.knownEndpointsByNodeId.find nodeId = some entry ∧
        ∃ tag, (tag, registry) ∈ entry.taggedObjs := by
  induction gone generalizing state with
  | nil => simp [removeRecords, OnNode]
  | cons record gone ih =>
    have erased : ∀ nodeId, (removeRecord state record).knownEndpointsByNodeId.find nodeId =
        if nodeId = record.nodeId then none else state.knownEndpointsByNodeId.find nodeId :=
      fun nodeId => Assoc.find_erase _ _ _
    rw [removeRecords_cons, ih, mem_removeRecord_notify]
    constructor
    · intro waits
      rcases waits with (waited | ⟨entry, found, tag, inside⟩) | ⟨nodeId, entry, on, found, inside⟩
      · exact .inl waited
      · exact .inr ⟨record.nodeId, entry, ⟨record, by simp, rfl⟩, found, tag, inside⟩
      · obtain ⟨other, member, node⟩ := on
        rw [erased] at found
        split at found
        case isTrue => contradiction
        case isFalse =>
            exact .inr ⟨nodeId, entry, ⟨other, mem_cons_of_mem _ member, node⟩, found, inside⟩
    · intro waits
      rcases waits with waited | ⟨nodeId, entry, ⟨other, member, node⟩, found, inside⟩
      · exact .inl (.inl waited)
      · by_cases first : nodeId = record.nodeId
        · subst first
          exact .inl (.inr ⟨entry, found, inside⟩)
        · have later : other ∈ gone := by
            rcases mem_cons.mp member with rfl | later
            · exact absurd node.symm first
            · exact later
          refine .inr ⟨nodeId, entry, ⟨other, later, node⟩, ?_, inside⟩
          rw [erased, if_neg first]
          exact found

/-! Entering records leaves everything but the containers of addresses and nodes. -/

section

variable (added : List EndpointRecord)
include added

@[simp] theorem addRecords_rest : (addRecords added state).rest = state.rest := by
  induction added generalizing state with
  | nil => rfl
  | cons record added ih => exact ih

@[simp] theorem addRecords_notify :
    (addRecords added state).notifyRemoved = state.notifyRemoved := by
  induction added generalizing state with
  | nil => rfl
  | cons record added ih => exact ih

theorem addRecords_other {nodeId : Nat} (absent : ¬ OnNode added nodeId) :
    (addRecords added state).knownEndpointsByNodeId.find nodeId =
      state.knownEndpointsByNodeId.find nodeId := by
  induction added generalizing state with
  | nil => rfl
  | cons record added ih =>
    have differ : nodeId ≠ record.nodeId := by
      intro same
      exact absent ⟨record, by simp, same.symm⟩
    have later : ¬ OnNode added nodeId := by
      intro on
      obtain ⟨other, member, node⟩ := on
      exact absent ⟨other, mem_cons_of_mem _ member, node⟩
    rw [addRecords_cons, ih later]
    simp [addRecord, differ]

theorem addRecords_entry {nodeId : Nat} (on : OnNode added nodeId) :
    ∃ record ∈ added, record.nodeId = nodeId ∧
      (addRecords added state).knownEndpointsByNodeId.find nodeId =
        some ⟨record, ((state.knownEndpointsByNodeId.find nodeId).map
          KnownEndpoint.taggedObjs).getD []⟩ := by
  induction added generalizing state with
  | nil => simp [OnNode] at on
  | cons record added ih =>
    rw [addRecords_cons]
    by_cases later : OnNode added nodeId
    · obtain ⟨other, member, node, found⟩ := @ih (addRecord state record) later
      refine ⟨other, mem_cons_of_mem _ member, node, found.trans ?_⟩
      by_cases same : nodeId = record.nodeId
      · simp [addRecord, same]
      · simp [addRecord, same]
    · have node : record.nodeId = nodeId := by
        obtain ⟨other, member, node⟩ := on
        rcases mem_cons.mp member with rfl | inside
        · exact node
        · exact absurd ⟨other, inside, node⟩ later
      rw [addRecords_other added later]
      simp [addRecord, node]

theorem addRecords_known (unique : Unique added) (endpoint : List Char) (record : EndpointRecord) :
    (addRecords added state).knownEndpoints.find endpoint = some record ↔
      (record ∈ added ∧ record.endpoint = endpoint) ∨
      ((∀ other ∈ added, other.endpoint ≠ endpoint) ∧
        state.knownEndpoints.find endpoint = some record) := by
  induction added generalizing state with
  | nil => simp [addRecords]
  | cons first added ih =>
    have apart := pairwise_cons.mp unique
    have inserted : (addRecord state first).knownEndpoints.find endpoint =
        if endpoint = first.endpoint then some first
        else state.knownEndpoints.find endpoint :=
      Assoc.find_insert _ _ _ _
    rw [addRecords_cons, ih apart.2]
    by_cases here : endpoint = first.endpoint
    · -- only the first record has this address
      grind
    · grind

theorem addRecords_distinct (distinct : state.knownEndpoints.Distinct) :
    (addRecords added state).knownEndpoints.Distinct := by
  induction added generalizing state with
  | nil => exact distinct
  | cons record added ih => exact ih (distinct.insert _ _)

end

theorem removeRecords_distinct (gone : List EndpointRecord)
    (distinct : state.knownEndpoints.Distinct) :
    (removeRecords gone state).knownEndpoints.Distinct := by
  induction gone generalizing state with
  | nil => exact distinct
  | cons record gone ih => exact ih (distinct.erase _)

def entered (records sorted : List EndpointRecord) (state : State) : State :=
  addRecords sorted { removeRecords (state.leftOut records) state with records := sorted }

def updated (records sorted : List EndpointRecord) (state : State) : State :=
  { entered records sorted state with bestK := getBestK sorted, pessimizationRatio := 0 }

variable (records sorted : List EndpointRecord)

theorem entered_rest : (entered records sorted state).rest = (sorted, state.rest.2) :=
  (addRecords_rest sorted).trans
    (congrArg (fun rest => (sorted, rest.2)) (removeRecords_rest (state.leftOut records)))

@[simp] theorem entered_records : (entered records sorted state).records = sorted :=
  congrArg (fun rest => rest.1) (entered_rest records sorted)

@[simp] theorem updated_records : (updated records sorted state).records = sorted :=
  entered_records records sorted

@[simp] theorem updated_registries :
    (updated records sorted state).registries = state.registries :=
  congrArg (fun rest => rest.2.2.2.1) (entered_rest records sorted)

@[simp] theorem updated_objRegistry :
    (updated records sorted state).objRegistry = state.objRegistry :=
  congrArg (fun rest => rest.2.2.2.2.1) (entered_rest records sorted)

@[simp] theorem updated_told : (updated records sorted state).told = state.told :=
  congrArg (fun rest => rest.2.2.2.2.2) (entered_rest records sorted)

theorem updated_notify :
    (updated records sorted state).notifyRemoved =
      (removeRecords (state.leftOut records) state).notifyRemoved :=
  addRecords_notify sorted

theorem mem_nodes :
    nodeId ∈ gone.map EndpointRecord.nodeId ↔ OnNode gone nodeId := by
  simp [OnNode]

theorem updated_entry {nodeId : Nat} (on : OnNode sorted nodeId) :
    ∃ record ∈ sorted, record.nodeId = nodeId ∧
      (updated records sorted state).knownEndpointsByNodeId.find nodeId =
        some ⟨record, (((if OnNode (state.leftOut records) nodeId then none
          else state.knownEndpointsByNodeId.find nodeId) : Option KnownEndpoint).map
            KnownEndpoint.taggedObjs).getD []⟩ := by
  obtain ⟨record, member, node, found⟩ := @addRecords_entry
    { removeRecords (state.leftOut records) state with records := sorted } sorted nodeId on
  refine ⟨record, member, node, found.trans ?_⟩
  simp only [removeRecords_index, Assoc.find_eraseAll, mem_nodes]

theorem updated_other (absent : ¬ OnNode sorted nodeId) :
    (updated records sorted state).knownEndpointsByNodeId.find nodeId =
      if OnNode (state.leftOut records) nodeId then none
      else state.knownEndpointsByNodeId.find nodeId := by
  have kept := @addRecords_other
    { removeRecords (state.leftOut records) state with records := sorted } sorted nodeId absent
  refine kept.trans ?_
  simp only [removeRecords_index, Assoc.find_eraseAll, mem_nodes]

end Update

structure Known (state : State) : Prop where
  unique : Unique state.records
  distinct : state.knownEndpoints.Distinct
  current : ∀ endpoint record, state.knownEndpoints.find endpoint = some record ↔
    record ∈ state.records ∧ record.endpoint = endpoint

theorem Known.initial : Known .initial where
  unique := .nil
  distinct := .nil
  current := by simp [State.initial]

theorem Known.length (known : Known state) :
    state.records.length = state.knownEndpoints.length := by
  have addresses : (state.records.map EndpointRecord.endpoint).Nodup :=
    pairwise_map.mpr known.unique
  have keys : (state.knownEndpoints.map Prod.fst).Nodup := pairwise_map.mpr known.distinct
  have same : ∀ endpoint, endpoint ∈ state.records.map EndpointRecord.endpoint ↔
      endpoint ∈ state.knownEndpoints.map Prod.fst := by
    intro endpoint
    simp only [mem_map]
    constructor
    · intro member
      obtain ⟨record, inside, rfl⟩ := member
      exact ⟨_, Assoc.mem_of_find ((known.current _ _).mpr ⟨inside, rfl⟩), rfl⟩
    · intro member
      obtain ⟨⟨key, record⟩, inside, rfl⟩ := member
      have found := (known.current _ _).mp (known.distinct.find_eq_some.mpr inside)
      exact ⟨record, found.1, found.2⟩
  have permuted := (perm_ext_iff_of_nodup addresses keys).mpr same
  simpa using permuted.length_eq

theorem Known.perm (known : Known state) (order : sorted.Perm state.records) (bestK : Int) :
    Known { state with records := sorted, bestK := bestK } where
  unique := known.unique.perm order
  distinct := known.distinct
  current endpoint record := by
    rw [known.current]
    exact and_congr_left fun _ => order.mem_iff.symm

section Update

variable {state : State} {records sorted : List EndpointRecord}

theorem mem_leftOut :
    record ∈ state.leftOut records ↔
      record ∈ state.records ∧ ∀ other ∈ records, other.endpoint ≠ record.endpoint := by
  simp [State.leftOut]

theorem Known.entered (known : Known state) (order : SortedAs (uniqRec records) sorted) :
    Known (entered records sorted state) := by
  have unique : Unique sorted := (unique_uniqueFrom [] records).perm order.1
  refine ⟨by rw [entered_records]; exact unique,
    addRecords_distinct sorted (removeRecords_distinct _ known.distinct), ?_⟩
  intro endpoint record
  rw [entered_records]
  refine (addRecords_known sorted unique endpoint record).trans (or_iff_left ?_)
  -- An address that is not new is left out or was not known.
  intro kept
  obtain ⟨absent, found⟩ := kept
  rw [removeRecords_known, Assoc.find_eraseAll] at found
  split at found
  case isTrue => contradiction
  case isFalse stays =>
      obtain ⟨member, rfl⟩ := (known.current _ _).mp found
      apply stays
      refine mem_map.mpr ⟨record, mem_leftOut.mpr ⟨member, ?_⟩, rfl⟩
      intro other inside same
      obtain ⟨first, new, equal⟩ := @exists_uniqueFrom other [] records inside (by simp)
      exact absent first (order.1.mem_iff.mpr new) (equal.trans same)

theorem Known.updated (known : Known state) (order : SortedAs (uniqRec records) sorted) :
    Known (updated records sorted state) :=
  have after := known.entered order
  ⟨after.unique, after.distinct, after.current⟩

theorem removeLoop_wp {gone : List EndpointRecord} {contract : Contract Empty Assertion State Unit}
    (unique : Unique gone)
    (known : ∀ record ∈ gone, (state.knownEndpoints.find record.endpoint).isSome = true) :
    Code.wp (.forEach gone fun record => do
      let state ← .get
      .require (state.knownEndpoints.find record.endpoint).isSome .endpointKnown
      .update fun state => removeRecord state record) contract state ↔
        contract.returns () (removeRecords gone state) := by
  induction gone generalizing state with
  | nil => rfl
  | cons record gone ih =>
    have apart := pairwise_cons.mp unique
    have here := known record (by simp)
    simp only [Code.forEach, wp_rules, here, true_implies, Bool.true_eq_false,
      false_implies, and_true]
    rw [ih apart.2]
    · rfl
    · intro other member
      have differ := (apart.1 other member).symm
      have later := known other (by simp [member])
      simpa [removeRecord, differ] using later

theorem addLoop_wp {contract : Contract Empty Assertion State Unit} :
    Code.wp (.forEach added fun record => .update fun state => addRecord state record)
      contract state ↔ contract.returns () (addRecords added state) := by
  induction added generalizing state with
  | nil => rfl
  | cons record added ih =>
    exact ih

theorem setNewState_wp (known : Known state) (order : SortedAs (uniqRec records) sorted) :
    Code.wp (setNewState records sorted) contract state ↔
      contract.returns ((state.leftOut records).map EndpointRecord.endpoint)
        (updated records sorted state) := by
  have unique : Unique (state.leftOut records) := .filter _ known.unique
  have gone : ∀ record ∈ state.leftOut records,
      (state.knownEndpoints.find record.endpoint).isSome = true := by
    intro record member
    rw [(known.current _ _).mpr ⟨(mem_leftOut.mp member).1, rfl⟩]
    rfl
  have sizes := (known.entered order).length
  simp only [setNewState, wp_rules, removeLoop_wp unique gone, addLoop_wp]
  change (((entered records sorted state).records.length ==
    (entered records sorted state).knownEndpoints.length) = true → _) ∧
      (((entered records sorted state).records.length ==
        (entered records sorted state).knownEndpoints.length) = false → _) ↔ _
  rw [sizes, beq_self_eq_true]
  simp only [true_implies, Bool.true_eq_false, false_implies, and_true]
  rfl

/-- Every node without a new record loses an address. -/
def KeepsNodes (state : State) (records : List EndpointRecord) : Prop :=
  ∀ record ∈ state.records, ¬ OnNode (uniqRec records) record.nodeId →
    OnNode (state.leftOut records) record.nodeId

instance (state : State) (records : List EndpointRecord) : Decidable (KeepsNodes state records) :=
  inferInstanceAs (Decidable (∀ record ∈ state.records, _))

theorem onNode_perm (order : sorted.Perm records) :
    OnNode sorted nodeId ↔ OnNode records nodeId := by
  simp [OnNode, order.mem_iff]

/-- An update keeps the index exact if and only if every node that disappears loses an
address. -/
theorem updated_exact_iff (exact : IndexExact state) (order : SortedAs (uniqRec records) sorted) :
    IndexExact (updated records sorted state) ↔ KeepsNodes state records := by
  have present : ∀ nodeId, OnNode sorted nodeId →
      ∃ record ∈ sorted, record.nodeId = nodeId ∧
        (updated records sorted state).shown nodeId = some record := by
    intro nodeId on
    obtain ⟨record, member, node, found⟩ := @updated_entry state records sorted nodeId on
    exact ⟨record, member, node, by rw [State.shown, found]; rfl⟩
  have absent : ∀ nodeId, ¬ OnNode sorted nodeId →
      (updated records sorted state).shown nodeId =
        if OnNode (state.leftOut records) nodeId then none else state.shown nodeId := by
    intro nodeId off
    rw [State.shown, updated_other records sorted off]
    split
    case isTrue => rfl
    case isFalse => rfl
  constructor
  · intro after record member off
    have offSorted : ¬ OnNode sorted record.nodeId := fun on => off ((onNode_perm order.1).mp on)
    have hidden := (after record.nodeId).1
    rw [absent _ offSorted, updated_records] at hidden
    by_contra stays
    rw [if_neg stays] at hidden
    exact offSorted (hidden.mp (((exact record.nodeId).1).mpr ⟨record, member, rfl⟩))
  · intro keeps nodeId
    rw [updated_records]
    by_cases on : OnNode sorted nodeId
    · obtain ⟨record, member, node, found⟩ := present nodeId on
      rw [found]
      refine ⟨by simp [on], ?_⟩
      intro other same
      cases same
      exact ⟨member, node⟩
    · have none : (updated records sorted state).shown nodeId = none := by
        rw [absent nodeId on]
        split
        case isTrue => rfl
        case isFalse stays =>
            cases before : state.shown nodeId with
            | none => rfl
            | some record =>
              have current := (exact nodeId).2 record before
              have lost := keeps record current.1 (by
                rw [current.2]
                exact fun new => on ((onNode_perm order.1).mpr new))
              exact absurd (current.2 ▸ lost) stays
      simp [none, on]

end Update

theorem find_adjust [DecidableEq κ] (key other : κ) (change : ν → ν) (map : Assoc κ ν) :
    (adjust key change map).find other =
      if other = key then (map.find key).map change else map.find other := by
  unfold adjust
  cases found : map.find key with
  | none =>
    by_cases same : other = key
    · simp [same, found]
    · simp [same]
  | some value =>
    by_cases same : other = key
    · simp [same]
    · simp [same]

theorem adjust_distinct [DecidableEq κ] {key : κ} {change : ν → ν} {map : Assoc κ ν}
    (distinct : map.Distinct) : (adjust key change map).Distinct := by
  unfold adjust
  split
  · exact distinct
  · exact distinct.insert _ _

theorem isCandidate_iff :
    isCandidate endpoint record = true ↔
      record.endpoint = endpoint ∧ record.priority ≠ pessimizedPriority := by
  simp [isCandidate]

theorem pessimizeFirst_map (endpoint : List Char) (records : List EndpointRecord)
    (field : EndpointRecord → φ) (same : ∀ record, field record.pessimized = field record) :
    (pessimizeFirst endpoint records).map field = records.map field := by
  induction records with
  | nil => rfl
  | cons record records ih =>
    rw [pessimizeFirst]
    split
    case isTrue => rw [map_cons, map_cons, same]
    case isFalse => rw [map_cons, map_cons, ih]

theorem mem_pessimizeFirst (unique : Unique records)
    (found : records.find? (isCandidate endpoint) = some candidate) (record : EndpointRecord) :
    record ∈ pessimizeFirst endpoint records ↔
      (record ∈ records ∧ record.endpoint ≠ endpoint) ∨ record = candidate.pessimized := by
  induction records with
  | nil => contradiction
  | cons first records ih =>
    have apart := pairwise_cons.mp unique
    rw [pessimizeFirst]
    by_cases here : isCandidate endpoint first = true
    · rw [List.find?_cons_of_pos here, Option.some.injEq] at found
      obtain ⟨rfl, -⟩ := isCandidate_iff.mp here
      grind
    · rw [List.find?_cons_of_neg here] at found
      have candidateHere := isCandidate_iff.mp (List.find?_some found)
      rw [if_neg here, mem_cons, ih apart.2 found]
      grind

section Pessimize

variable {state : State} {endpoint : List Char} {candidate : EndpointRecord}

theorem Known.pessimized (known : Known state)
    (found : state.records.find? (isCandidate endpoint) = some candidate) :
    Known (pessimizeRecord endpoint candidate.nodeId state) := by
  have member := mem_pessimizeFirst known.unique found
  have here := mem_of_find?_eq_some found
  obtain ⟨rfl, -⟩ := isCandidate_iff.mp (List.find?_some found)
  refine ⟨?_, adjust_distinct known.distinct, ?_⟩
  · rw [unique_iff]
    exact (pessimizeFirst_map _ _ EndpointRecord.endpoint fun _ => rfl).symm ▸
      unique_iff.mp known.unique
  · intro address record
    refine .trans ?_ (and_congr_left fun _ => (member record).symm)
    have entry : state.knownEndpoints.find candidate.endpoint = some candidate :=
      (known.current _ _).mpr ⟨here, rfl⟩
    have other := known.current address record
    rw [pessimizeRecord, find_adjust, entry]
    by_cases same : address = candidate.endpoint
    · subst same
      simp only [if_true, Option.map_some, Option.some.injEq]
      constructor
      · intro equal
        subst equal
        exact ⟨.inr rfl, rfl⟩
      · intro inside
        obtain ⟨⟨_, differs⟩ | equal, address⟩ := inside
        · exact absurd address differs
        · exact equal.symm
    · rw [if_neg same, other]
      constructor
      · intro inside
        exact ⟨.inl ⟨inside.1, fun equal => same (inside.2.symm.trans equal)⟩, inside.2⟩
      · intro inside
        obtain ⟨⟨old, _⟩ | rfl, address⟩ := inside
        · exact ⟨old, address⟩
        · exact absurd address.symm same

theorem shown_pessimizeRecord (nodeId other : Nat) :
    (pessimizeRecord endpoint nodeId state).shown other =
      if other = nodeId then (state.shown nodeId).map fun record =>
          if record.endpoint = endpoint then record.pessimized else record
      else state.shown other := by
  rw [State.shown, pessimizeRecord, find_adjust]
  split
  case isTrue =>
      rw [State.shown, Option.map_map, Option.map_map]
      congr 1
      funext entry
      simp only [Function.comp, pessimizeEntry]
      split
      case isTrue => rfl
      case isFalse => rfl
  case isFalse => rfl

theorem onNode_pessimized (nodeId : Nat) :
    OnNode (pessimizeRecord endpoint node state).records nodeId ↔
      OnNode state.records nodeId := by
  rw [← mem_nodes, ← mem_nodes]
  exact Eq.to_iff (congrArg (nodeId ∈ ·)
    (pessimizeFirst_map _ _ EndpointRecord.nodeId fun _ => rfl))

theorem IndexExact.pessimized (exact : IndexExact state) (known : Known state)
    (found : state.records.find? (isCandidate endpoint) = some candidate) :
    IndexExact (pessimizeRecord endpoint candidate.nodeId state) := by
  have member := mem_pessimizeFirst known.unique found
  have here := mem_of_find?_eq_some found
  obtain ⟨rfl, -⟩ := isCandidate_iff.mp (List.find?_some found)
  -- The record of the address is the candidate, so only the entry of its node can show it.
  have only : ∀ record ∈ state.records, record.endpoint = candidate.endpoint → record = candidate :=
    fun record inside same => known.unique.eq inside here same
  intro nodeId
  obtain ⟨present, current⟩ := exact nodeId
  rw [onNode_pessimized, shown_pessimizeRecord, ← present]
  by_cases same : nodeId = candidate.nodeId
  · subst same
    simp only [if_true, Option.isSome_map, true_and]
    intro record shows
    obtain ⟨before, shown, rfl⟩ := Option.map_eq_some_iff.mp shows
    obtain ⟨inside, node⟩ := current before shown
    by_cases address : before.endpoint = candidate.endpoint
    · rw [if_pos address, only before inside address]
      exact ⟨(member _).mpr (.inr rfl), rfl⟩
    · rw [if_neg address]
      exact ⟨(member _).mpr (.inl ⟨inside, address⟩), node⟩
  · simp only [if_neg same, true_and]
    intro record shown
    obtain ⟨inside, node⟩ := current record shown
    have address : record.endpoint ≠ candidate.endpoint := by
      intro equal
      rw [only record inside equal] at node
      exact same node.symm
    exact ⟨(member _).mpr (.inl ⟨inside, address⟩), node⟩

end Pessimize

/-- What pessimizing keeps: an invariant that survives one change of a record and another order
of the records. -/
structure Resilient (invariant : State → Prop) : Prop where
  changes : ∀ {state endpoint candidate}, invariant state →
    state.records.find? (isCandidate endpoint) = some candidate →
    invariant (pessimizeRecord endpoint candidate.nodeId state)
  sorts : ∀ {state sorted}, invariant state → sorted.Perm state.records →
    invariant { state with records := sorted, bestK := getBestK sorted }

namespace Resilient

variable {invariant : State → Prop} {state : State} (resilient : Resilient invariant)
  {sorted records : List EndpointRecord} {nodeId : Nat} {record : EndpointRecord}
  {endpoint : List Char}

include resilient

theorem pessimizeEndpointUnlocked (holds : invariant state) (endpoint : List Char) :
    invariant (pessimizeEndpointUnlocked endpoint state).2 := by
  unfold Endpoints.pessimizeEndpointUnlocked
  split
  case h_1 => exact holds
  case h_2 found => exact resilient.changes holds found

theorem pessimizeFrom (holds : invariant state) (nodeId : Nat) (positions : List Nat)
    (changed : Bool) : invariant (pessimizeFrom nodeId positions changed state).2 := by
  induction positions generalizing state changed with
  | nil => exact holds
  | cons position rest ih =>
    rw [Endpoints.pessimizeFrom]
    split
    case h_1 => exact ih holds changed
    case h_2 record _ =>
        split
        case isTrue =>
            exact ih (resilient.pessimizeEndpointUnlocked holds record.endpoint) _
        case isFalse => exact ih holds changed

theorem resort (holds : invariant state) (order : SortedAs state.records sorted) (changed : Bool) :
    invariant (resort changed sorted state) := by
  unfold Endpoints.resort
  split
  case isTrue => exact resilient.sorts holds order.1
  case isFalse => exact holds

theorem pessimizeEndpoint (holds : invariant state)
    (possible : Possible state (.pessimizeEndpoint endpoint sorted)) :
    (pessimizeEndpoint endpoint sorted).wp (.keeping invariant fun _ => False) state := by
  exact resilient.resort (resilient.pessimizeEndpointUnlocked holds endpoint) possible _

theorem pessimizeNode (holds : invariant state)
    (possible : Possible state (.pessimizeNode nodeId sorted)) :
    (pessimizeNode nodeId sorted).wp (.keeping invariant fun _ => False) state := by
  change invariant (if nodeId = 0 then state else _)
  split
  case isTrue => exact holds
  case isFalse => exact resilient.resort (resilient.pessimizeFrom holds nodeId _ _) possible _

end Resilient

theorem IndexExact.perm (exact : IndexExact state) (order : sorted.Perm state.records)
    (bestK : Int) : IndexExact { state with records := sorted, bestK := bestK } := by
  intro nodeId
  obtain ⟨present, current⟩ := exact nodeId
  refine ⟨present.trans (onNode_perm order).symm, ?_⟩
  intro record shown
  exact ⟨order.mem_iff.mpr (current record shown).1, (current record shown).2⟩

theorem resilient_exact : Resilient fun state => Known state ∧ IndexExact state where
  changes holds found := ⟨holds.1.pessimized found, holds.2.pessimized holds.1 found⟩
  sorts holds order := ⟨holds.1.perm order _, holds.2.perm order _⟩

def Covered (state : State) : Prop :=
  ∀ nodeId, OnNode state.records nodeId → (state.shown nodeId).isSome = true

theorem resilient_covered : Resilient fun state => Known state ∧ Covered state where
  changes := by
    intro state endpoint candidate holds found
    refine ⟨holds.1.pessimized found, ?_⟩
    intro nodeId on
    have entry := holds.2 nodeId ((onNode_pessimized nodeId).mp on)
    rw [shown_pessimizeRecord]
    by_cases same : nodeId = candidate.nodeId
    · subst same
      simpa using entry
    · simpa [same] using entry
  sorts holds order :=
    ⟨holds.1.perm order _, fun nodeId on => holds.2 nodeId ((onNode_perm order).mp on)⟩

theorem Covered.updated (state : State) (records sorted : List EndpointRecord) :
    Covered (updated records sorted state) := by
  intro nodeId on
  rw [updated_records] at on
  obtain ⟨record, -, -, found⟩ := @updated_entry state records sorted nodeId on
  rw [State.shown, found]
  rfl

def State.addresses (state : State) :
    List EndpointRecord × Assoc (List Char) EndpointRecord × (Nat → Option EndpointRecord) :=
  (state.records, state.knownEndpoints, state.shown)

def State.outside (state : State) :
    (List EndpointRecord × Assoc (List Char) EndpointRecord × (Nat → Option EndpointRecord)) × Int × Nat :=
  (state.addresses, state.bestK, state.pessimizationRatio)

theorem shown_createRegistry
    (found : state.knownEndpointsByNodeId.find nodeId = some entry) :
    (createRegistry nodeId tag entry state).shown = state.shown := by
  funext other
  simp only [State.shown, createRegistry]
  by_cases same : other = nodeId
  · simp [same, found]
  · simp [same]

theorem leaveRegistry_outside (obj : Nat) :
    Code.Follows (.fixed State.outside) (leaveRegistry obj) := by
  refine .bind .get fun state => ?_
  split
  · exact .pure ()
  · exact .bind (.require _ _) fun _ => .update fun _ => rfl

theorem unlink_outside (obj : Nat) : Code.Follows (.fixed State.outside) (unlink obj) :=
  .bind (leaveRegistry_outside obj) fun _ => .update fun _ => rfl

theorem link_outside (obj registry : Nat) :
    Code.Follows (.fixed State.outside) (link obj registry) :=
  .bind .get fun _ => .ite _ (fun _ => .pure false) fun _ =>
    .bind (.update fun _ => rfl) fun _ =>
      .bind (leaveRegistry_outside obj) fun _ => .bind (.update fun _ => rfl) fun _ => .pure true

theorem linkObjToEndpoint_outside (nodeId obj tag : Nat) :
    Code.Follows (.fixed State.outside) (linkObjToEndpoint nodeId obj tag) := by
  intro state
  simp only [linkObjToEndpoint, wp_rules]
  cases found : state.knownEndpointsByNodeId.find nodeId with
  | none =>
    change state.outside = state.outside
    rfl
  | some entry =>
    cases registered : entry.taggedObjs.find tag with
    | some registry =>
      simp only [registered]
      exact link_outside obj registry state
    | none =>
      simp only [registered]
      have created : (createRegistry nodeId tag entry state).outside = state.outside := by
        rw [State.outside, State.addresses, shown_createRegistry found]
        rfl
      have linked := link_outside obj state.registries.length
        (createRegistry nodeId tag entry state)
      exact wp_mono linked (fun _ _ same => same.trans created)
        (fun _ _ same => same.trans created)

theorem Known.of_addresses {after : State} (known : Known before)
    (same : after.addresses = before.addresses) : Known after := by
  have records : after.records = before.records := congrArg (fun part => part.1) same
  have container : after.knownEndpoints = before.knownEndpoints :=
    congrArg (fun part => part.2.1) same
  exact ⟨records ▸ known.unique, container ▸ known.distinct, by
    rw [records, container]
    exact known.current⟩

theorem IndexExact.of_addresses {after : State} (exact : IndexExact before)
    (same : after.addresses = before.addresses) : IndexExact after := by
  have records : after.records = before.records := congrArg (fun part => part.1) same
  have shown : after.shown = before.shown := congrArg (fun part => part.2.2) same
  rw [IndexExact, records, shown]
  exact exact

/-- An invariant that does not speak of linked objects and that pessimizing keeps has to be
checked for updates only. -/
theorem react_keeping {invariant : State → Prop} {state : State} {event : Event}
    (localised : ∀ before after, after.outside = before.outside → invariant before →
      invariant after) (resilient : Resilient fun state => Known state ∧ invariant state)
    (known : Known state) (holds : invariant state) (possible : Possible state event)
    (updates : ∀ records sorted, event = .setNewState records sorted →
      invariant (updated records sorted state)) :
    (react event).wp (.keeping (fun after => Known after ∧ invariant after) fun _ => True)
      state := by
  have kept : ∀ after, after.outside = state.outside →
      Known after ∧ invariant after :=
    fun after same => ⟨known.of_addresses (congrArg Prod.fst same), localised state after same holds⟩
  cases event with
  | setNewState records sorted =>
    simp only [react, wp_rules, setNewState_wp known possible]
    exact ⟨known.updated possible, updates records sorted rfl⟩
  | notifyEndpointRemoved registry => exact kept _ rfl
  | pessimizeEndpoint endpoint sorted =>
    exact wp_mono (resilient.pessimizeEndpoint ⟨known, holds⟩ possible)
      (fun _ _ => id) (fun _ _ => id)
  | pessimizeNode nodeId sorted =>
    exact wp_mono (resilient.pessimizeNode ⟨known, holds⟩ possible)
      (fun _ _ => id) (fun _ _ => id)
  | linkObjToEndpoint nodeId obj tag =>
    rw [react, wp_bind]
    exact wp_mono (linkObjToEndpoint_outside nodeId obj tag state)
      (fun _ after same => kept after same) (fun _ after same => kept after same)
  | unlink obj =>
    exact wp_mono (unlink_outside obj state)
      (fun _ after same => kept after same) (fun _ after same => kept after same)

def NodesLoseAddresses (state : State) : Event → Prop
  | .setNewState records _ => KeepsNodes state records
  | _ => True

instance (state : State) : (event : Event) → Decidable (NodesLoseAddresses state event) := by
  rintro ⟨⟩ <;> dsimp only [NodesLoseAddresses] <;> infer_instance

theorem IndexExact.initial : IndexExact .initial := by
  intro nodeId
  simp [State.initial, State.shown, OnNode]

theorem reachable_exact (reached : Reachable react
      (fun state event => Possible state event ∧ NodesLoseAddresses state event) .initial state) :
    Known state ∧ IndexExact state :=
  reached.invariant ⟨.initial, .initial⟩ fun before event holds allowed =>
    react_keeping (fun _ _ same exact => exact.of_addresses (congrArg Prod.fst same)) resilient_exact holds.1 holds.2
      allowed.1 fun records sorted update => by
        subst update
        exact (updated_exact_iff holds.2 allowed.1).mpr allowed.2

theorem react_covered {before : State} {event : Event} (known : Known before)
    (covered : Covered before) (possible : Possible before event) :
    (react event).wp (.keeping (fun after => Known after ∧ Covered after) fun _ => True) before := by
  refine react_keeping ?_ resilient_covered known covered possible
    fun records sorted _ => .updated before records sorted
  intro before after same covered
  have records : after.records = before.records := congrArg (fun part => part.1.1) same
  have shown : after.shown = before.shown := congrArg (fun part => part.1.2.2) same
  rw [Covered, records, shown]
  exact covered

theorem Covered.initial : Covered .initial := by
  simp [Covered, State.initial, OnNode]

/-- In every run the nodes of all current records are in the index, so that going over the
endpoints finds an entry for each. -/
theorem forEachEndpoint_finds (reached : Reachable react Possible .initial state)
    (minPriority maxPriority : Int) (tag : Nat) :
    (forEachEndpoint state minPriority maxPriority tag).isSome = true := by
  have covered : Known state ∧ Covered state :=
    reached.invariant ⟨.initial, .initial⟩ fun _ _ holds => react_covered holds.1 holds.2
  have entries : ∀ record ∈ (state.records.dropWhile fun record =>
      decide (record.priority < minPriority)).takeWhile fun record =>
        decide (record.priority ≤ maxPriority),
      (state.knownEndpointsByNodeId.find record.nodeId).isSome = true := by
    intro record member
    have inside : record ∈ state.records :=
      (dropWhile_sublist _).subset ((takeWhile_sublist _).subset member)
    simpa [State.shown] using covered.2 record.nodeId ⟨record, inside, rfl⟩
  rw [forEachEndpoint]
  generalize (state.records.dropWhile fun record => decide (record.priority < minPriority)).takeWhile
    (fun record => decide (record.priority ≤ maxPriority)) = visited at entries
  induction visited with
  | nil => rfl
  | cons record visited ih =>
    obtain ⟨entry, found⟩ := Option.isSome_iff_exists.mp (entries record (by simp))
    obtain ⟨rest, sizes⟩ := Option.isSome_iff_exists.mp
      (ih fun other member => entries other (by simp [member]))
    rw [mapM_cons, found, sizes]
    rfl

/-- While every node that disappears loses an address, the index is exact; the first update that
breaks the condition breaks the index. -/
theorem node_index_exact {state : State}
    (reached : Reachable react
      (fun state event => Possible state event ∧ NodesLoseAddresses state event) .initial state) :
    IndexExact state ∧
      ∀ records sorted after, SortedAs (uniqRec records) sorted →
        (react (.setNewState records sorted)).step state = .ok after →
        (IndexExact after ↔ KeepsNodes state records) := by
  obtain ⟨known, exact⟩ := reachable_exact reached
  refine ⟨exact, ?_⟩
  intro records sorted after order taken
  have ended : (react (.setNewState records sorted)).wp
      (.keeping (· = updated records sorted state) fun _ => True) state := by
    simp only [react, wp_rules, setNewState_wp known order]
  rw [wp_step ended taken]
  exact updated_exact_iff exact order

/-- Node 2 loses its only address and node 1 one of two; the other is pessimized before. -/
theorem node_index_exact_removed :
    ∃ state, Reachable react
      (fun state event => Possible state event ∧ NodesLoseAddresses state event) .initial state ∧
      state.records ≠ [] ∧ IndexExact state := by
  obtain ⟨state, reached, nonempty⟩ : ∃ state, Reachable react
      (fun state event => Possible state event ∧ NodesLoseAddresses state event) .initial state ∧
      state.records ≠ [] :=
    exists_reachable
      [.setNewState [⟨['a'], 1, [], 1, []⟩, ⟨['b'], 0, [], 1, []⟩, ⟨['c'], 2, [], 2, []⟩]
        [⟨['b'], 0, [], 1, []⟩, ⟨['a'], 1, [], 1, []⟩, ⟨['c'], 2, [], 2, []⟩],
       .pessimizeEndpoint ['a']
        [⟨['b'], 0, [], 1, []⟩, ⟨['c'], 2, [], 2, []⟩, ⟨['a'], pessimizedPriority, [], 1, []⟩],
       .setNewState [⟨['a'], 1, [], 1, []⟩] [⟨['a'], 1, [], 1, []⟩]] (by decide +kernel)
  exact ⟨state, reached, nonempty, (node_index_exact reached).1⟩

/-- An address that moves from node 1 to node 2 leaves the entry of node 1 behind. -/
theorem moved_address_stays_indexed :
    ∃ state, Reachable react Possible .initial state ∧ ¬ IndexExact state := by
  obtain ⟨state, reached, shown, off⟩ : ∃ state, Reachable react Possible .initial state ∧
      (state.shown 1).isSome = true ∧ ¬ OnNode state.records 1 :=
    exists_reachable
      [.setNewState [⟨['a'], 0, [], 1, []⟩] [⟨['a'], 0, [], 1, []⟩],
       .setNewState [⟨['a'], 0, [], 2, []⟩] [⟨['a'], 0, [], 2, []⟩]] (by decide +kernel)
  exact ⟨state, reached, fun exact => off ((exact 1).1.mp shown)⟩

end YdbSdk.Endpoints
