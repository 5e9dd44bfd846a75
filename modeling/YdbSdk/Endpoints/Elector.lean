import YdbSdk.Control.Run
import YdbSdk.Data.Assoc

namespace YdbSdk.Endpoints

open Control Data

/-! # The endpoint elector

The elector keeps the endpoints of the last discovery in three containers: the records sorted by
priority, the record of each address, and an index by node.  An entry of the index also holds the
registries of the objects linked to the node, one for each tag.

Every public call is one event.  `std::sort` is not stable, so that an event that sorts carries
the order the records end up in.  `SetNewState` notifies the registries it took out of the index
after it has released the mutex; until then they wait in `notifyRemoved`. -/

structure EndpointRecord where
  endpoint : List Char
  priority : Int
  sslTargetNameOverride : List Char
  nodeId : Nat
  location : List Char
deriving DecidableEq

def EndpointRecord.empty : EndpointRecord := ⟨[], 0, [], 0, []⟩

def pessimizedPriority : Int := 2 ^ 31 - 1

def EndpointRecord.pessimized (record : EndpointRecord) : EndpointRecord :=
  { record with priority := pessimizedPriority }

structure ObjRegistry where
  nodeId : Nat
  objs : List Nat

/-- An entry of the index: registries are named by their position among all created ones. -/
structure KnownEndpoint where
  record : EndpointRecord
  taggedObjs : Assoc Nat Nat

structure State where
  records : List EndpointRecord
  knownEndpoints : Assoc (List Char) EndpointRecord
  knownEndpointsByNodeId : Assoc Nat KnownEndpoint
  bestK : Int
  pessimizationRatio : Nat
  registries : List ObjRegistry
  -- The registry each object is in.
  objRegistry : Assoc Nat Nat
  -- Registries out of the index whose objects are still to be told.
  notifyRemoved : List Nat
  -- The calls of `OnEndpointRemoved` so far.
  told : List Nat

def State.initial : State := ⟨[], [], [], -1, 0, [], [], [], []⟩

inductive Assertion where
  | endpointKnown
  | sizesAgree
  | objectRegistered

abbrev Elector := Code Empty Assertion State

def State.objs (state : State) (registry : Nat) : List Nat :=
  match state.registries[registry]? with
  | none => []
  | some found => found.objs

/-- The last index of the records with the priority of the first, or -1. -/
def getBestK : List EndpointRecord → Int
  | [] => -1
  | first :: rest => (rest.takeWhile fun record => record.priority = first.priority).length

/-! ## A discovery update -/

instance lawfulAddress : LawfulBEq (List Char) := inferInstance

def uniqueFrom : (index : List (List Char)) → List EndpointRecord → List EndpointRecord
  | _, [] => []
  | index, record :: rest =>
    if record.endpoint ∈ index then uniqueFrom index rest
    else record :: uniqueFrom (record.endpoint :: index) rest

def uniqRec (records : List EndpointRecord) : List EndpointRecord := uniqueFrom [] records

def State.leftOut (state : State) (records : List EndpointRecord) : List EndpointRecord :=
  state.records.filter fun record => record.endpoint ∉ records.map EndpointRecord.endpoint

def removeRecord (state : State) (record : EndpointRecord) : State :=
  { state with
    knownEndpoints := state.knownEndpoints.erase record.endpoint
    notifyRemoved := state.notifyRemoved ++
      match state.knownEndpointsByNodeId.find record.nodeId with
      | none => []
      | some entry => entry.taggedObjs.map Prod.snd
    knownEndpointsByNodeId := state.knownEndpointsByNodeId.erase record.nodeId }

/-- A record is entered; an entry of its node keeps its registries. -/
def addRecord (state : State) (record : EndpointRecord) : State :=
  { state with
    knownEndpoints := state.knownEndpoints.insert record.endpoint record
    knownEndpointsByNodeId := state.knownEndpointsByNodeId.insert record.nodeId
      { record := record
        taggedObjs := ((state.knownEndpointsByNodeId.find record.nodeId).map
          KnownEndpoint.taggedObjs).getD [] } }

/-- The new records in the order `sorted`. -/
def setNewState (records sorted : List EndpointRecord) : Elector (List (List Char)) := do
  let removed ← .read fun state => state.leftOut records
  .forEach removed fun record => do
    let state ← .get
    .require (state.knownEndpoints.find record.endpoint).isSome .endpointKnown
    .update fun state => removeRecord state record
  .update fun state => { state with records := sorted }
  .forEach sorted fun record => .update fun state => addRecord state record
  let state ← .get
  .require (state.records.length == state.knownEndpoints.length) .sizesAgree
  .update fun state => { state with bestK := getBestK sorted, pessimizationRatio := 0 }
  pure (removed.map EndpointRecord.endpoint)

/-- The objects of a registry that has left the index are told. -/
def notifyEndpointRemoved (registry : Nat) : Elector Unit :=
  .update fun state =>
    { state with
      told := state.told ++ state.objs registry
      notifyRemoved := state.notifyRemoved.erase registry }

/-! ## Choosing an endpoint -/

/-- `idx` is the random number, below `bestK + 1`. -/
def getEndpoint (state : State) (preferredEndpoint : List Char) (preferredNodeId : Nat)
    (onlyPreferred : Bool) (idx : Nat) : EndpointRecord :=
  let byNode :=
    if preferredNodeId ≠ 0 then state.knownEndpointsByNodeId.find preferredNodeId else none
  let byAddress :=
    if preferredEndpoint ≠ [] then state.knownEndpoints.find preferredEndpoint else none
  match byNode with
  | some entry => entry.record
  | none =>
    match byAddress with
    | some record => record
    | none =>
      if onlyPreferred ∨ state.bestK = -1 then .empty
      else (state.records[idx]?).getD .empty

/-! ## Moving endpoints to the end -/

/-- The first record of an address that is not yet pessimized. -/
def isCandidate (endpoint : List Char) (record : EndpointRecord) : Bool :=
  record.endpoint == endpoint && record.priority != pessimizedPriority

def pessimizeFirst (endpoint : List Char) : List EndpointRecord → List EndpointRecord
  | [] => []
  | record :: rest =>
    if isCandidate endpoint record then record.pessimized :: rest
    else record :: pessimizeFirst endpoint rest

/-- The entry of the index follows when it shows this endpoint. -/
def pessimizeEntry (endpoint : List Char) (entry : KnownEndpoint) : KnownEndpoint :=
  if entry.record.endpoint = endpoint then { entry with record := entry.record.pessimized }
  else entry

def adjust [DecidableEq κ] (key : κ) (change : ν → ν) (map : Assoc κ ν) : Assoc κ ν :=
  match map.find key with
  | none => map
  | some value => map.insert key (change value)

def pessimizeRecord (endpoint : List Char) (nodeId : Nat) (state : State) : State :=
  { state with
    records := pessimizeFirst endpoint state.records
    knownEndpoints := adjust endpoint .pessimized state.knownEndpoints
    knownEndpointsByNodeId := adjust nodeId (pessimizeEntry endpoint) state.knownEndpointsByNodeId
    pessimizationRatio :=
      (state.pessimizationRatio * state.records.length + 100) / state.records.length }

def pessimizeEndpointUnlocked (endpoint : List Char) (state : State) : Bool × State :=
  match state.records.find? (isCandidate endpoint) with
  | none => (false, state)
  | some record => (true, pessimizeRecord endpoint record.nodeId state)

def resort (changed : Bool) (sorted : List EndpointRecord) (state : State) : State :=
  if changed then { state with records := sorted, bestK := getBestK sorted } else state

def pessimizeEndpoint (endpoint : List Char) (sorted : List EndpointRecord) : Elector Unit :=
  .update fun state =>
    let (changed, state) := pessimizeEndpointUnlocked endpoint state
    resort changed sorted state

/-- The loop over the records of a node: the view is lazy, so each record is looked at after the
ones before it were changed. -/
def pessimizeFrom (nodeId : Nat) : (positions : List Nat) → (changed : Bool) → State → Bool × State
  | [], changed, state => (changed, state)
  | position :: rest, changed, state =>
    match state.records[position]? with
    | none => pessimizeFrom nodeId rest changed state
    | some record =>
      if record.nodeId = nodeId ∧ record.priority ≠ pessimizedPriority then
        let (found, state) := pessimizeEndpointUnlocked record.endpoint state
        pessimizeFrom nodeId rest (changed || found) state
      else pessimizeFrom nodeId rest changed state

def pessimizeNode (nodeId : Nat) (sorted : List EndpointRecord) : Elector Unit :=
  .update fun state =>
    if nodeId = 0 then state
    else
      let (changed, state) := pessimizeFrom nodeId (.range state.records.length) false state
      resort changed sorted state

/-! ## Linked objects -/

def ObjRegistry.add (obj : Nat) (registry : ObjRegistry) : ObjRegistry :=
  { registry with objs := obj :: registry.objs }

def ObjRegistry.remove (obj : Nat) (registry : ObjRegistry) : ObjRegistry :=
  { registry with objs := registry.objs.filter (· ≠ obj) }

def leaveRegistry (obj : Nat) : Elector Unit := do
  let state ← .get
  match state.objRegistry.find obj with
  | none => pure ()
  | some registry =>
    .require (decide (obj ∈ state.objs registry)) .objectRegistered
    .update fun state =>
      { state with registries := state.registries.modify registry (.remove obj) }

def unlink (obj : Nat) : Elector Unit := do
  leaveRegistry obj
  .update fun state => { state with objRegistry := state.objRegistry.erase obj }

/-- Returns false if the object is there already. -/
def link (obj registry : Nat) : Elector Bool := do
  let state ← .get
  if obj ∈ state.objs registry then pure false
  else do
    .update fun state =>
      { state with registries := state.registries.modify registry (.add obj) }
    leaveRegistry obj
    .update fun state => { state with objRegistry := state.objRegistry.insert obj registry }
    pure true

def createRegistry (nodeId tag : Nat) (entry : KnownEndpoint) (state : State) : State :=
  { state with
    registries := state.registries ++ [⟨nodeId, []⟩]
    knownEndpointsByNodeId := state.knownEndpointsByNodeId.insert nodeId
      { entry with taggedObjs := entry.taggedObjs.insert tag state.registries.length } }

def linkObjToEndpoint (nodeId obj tag : Nat) : Elector Bool := do
  let state ← .get
  match state.knownEndpointsByNodeId.find nodeId with
  | none => pure false
  | some entry =>
    match entry.taggedObjs.find tag with
    | some registry => link obj registry
    | none => do
        .update fun state => createRegistry nodeId tag entry state
        link obj state.registries.length

/-- The sizes of the registries of a tag, from the records of a range of priorities, or `none`
when a node is not in the index. -/
def forEachEndpoint (state : State) (minPriority maxPriority : Int) (tag : Nat) :
    Option (List (Nat × Nat)) :=
  ((state.records.dropWhile fun record => record.priority < minPriority).takeWhile
    fun record => record.priority ≤ maxPriority).mapM fun record =>
      (state.knownEndpointsByNodeId.find record.nodeId).map fun entry =>
        match entry.taggedObjs.find tag with
        | none => (record.nodeId, 0)
        | some registry => (record.nodeId, (state.objs registry).length)

/-! ## Runs -/

inductive Event where
  | setNewState (records sorted : List EndpointRecord)
  | notifyEndpointRemoved (registry : Nat)
  | pessimizeEndpoint (endpoint : List Char) (sorted : List EndpointRecord)
  | pessimizeNode (nodeId : Nat) (sorted : List EndpointRecord)
  | linkObjToEndpoint (nodeId obj tag : Nat)
  | unlink (obj : Nat)
deriving DecidableEq

def react : Event → Elector Unit
  | .setNewState records sorted => do
      let _ ← setNewState records sorted
  | .notifyEndpointRemoved registry => notifyEndpointRemoved registry
  | .pessimizeEndpoint endpoint sorted => pessimizeEndpoint endpoint sorted
  | .pessimizeNode nodeId sorted => pessimizeNode nodeId sorted
  | .linkObjToEndpoint nodeId obj tag => do
      let _ ← linkObjToEndpoint nodeId obj tag
  | .unlink obj => unlink obj

def SortedAs (records sorted : List EndpointRecord) : Prop :=
  sorted.Perm records ∧ sorted.Pairwise fun first second => first.priority ≤ second.priority

instance (records sorted : List EndpointRecord) : Decidable (SortedAs records sorted) :=
  inferInstanceAs (Decidable (_ ∧ _))

/-- Events as they can occur: the orders are those of a sort, and only registries that wait are
notified. -/
def Possible (state : State) : Event → Prop
  | .setNewState records sorted => SortedAs (uniqRec records) sorted
  | .notifyEndpointRemoved registry => registry ∈ state.notifyRemoved
  | .pessimizeEndpoint endpoint sorted =>
    SortedAs (pessimizeEndpointUnlocked endpoint state).2.records sorted
  | .pessimizeNode nodeId sorted =>
    SortedAs (pessimizeFrom nodeId (.range state.records.length) false state).2.records
      sorted
  | .linkObjToEndpoint _ _ _ => True
  | .unlink _ => True

instance (state : State) (event : Event) : Decidable (Possible state event) := by
  unfold Possible
  split <;> infer_instance

end YdbSdk.Endpoints
