import YdbSdk.Endpoints.Index

namespace YdbSdk.Endpoints

open Control Data Code List

/-! # Notices of removed endpoints

Objects are linked to a node through a registry of its entry.  An update takes the entries of all
nodes that lose an address out of the index and has their registries notified; a node that keeps
another address gets a new entry without them.  While the nodes that lose an address are those
that are left without one, the notices are exact. -/

variable {event : Event} {obj nodeId someone registry tag : Nat} {state before : State}
  {target : Option Nat}

def State.tagged (state : State) (nodeId : Nat) : Option (Assoc Nat Nat) :=
  (state.knownEndpointsByNodeId.find nodeId).map KnownEndpoint.taggedObjs

def Linked (state : State) (obj nodeId : Nat) : Prop :=
  ∃ tags tag registry, state.tagged nodeId = some tags ∧ (tag, registry) ∈ tags ∧
    obj ∈ state.objs registry

/-- The object is in a registry that is about to be notified. -/
def AwaitsNotice (state : State) (obj : Nat) : Prop :=
  ∃ registry ∈ state.notifyRemoved, obj ∈ state.objs registry

def isLinked (state : State) (obj nodeId : Nat) : Bool :=
  match state.tagged nodeId with
  | none => false
  | some tags => tags.any fun entry => decide (obj ∈ state.objs entry.2)

theorem isLinked_iff : isLinked state obj nodeId = true ↔ Linked state obj nodeId := by
  rw [isLinked, Linked]
  cases state.tagged nodeId with
  | none => simp
  | some tags => simp

instance (state : State) (obj nodeId : Nat) : Decidable (Linked state obj nodeId) :=
  decidable_of_iff _ isLinked_iff

instance (state : State) (obj : Nat) : Decidable (AwaitsNotice state obj) :=
  inferInstanceAs (Decidable (∃ registry ∈ state.notifyRemoved, _))

/-- An object is in the one registry it knows, and the registries of the index belong to their
nodes and are not about to be notified. -/
structure Registered (state : State) : Prop where
  member : ∀ obj registry, obj ∈ state.objs registry ↔
    state.objRegistry.find obj = some registry
  live : ∀ {nodeId tags tag registry}, state.tagged nodeId = some tags →
    (tag, registry) ∈ tags →
      (state.registries[registry]?).map ObjRegistry.nodeId = some nodeId ∧
        registry ∉ state.notifyRemoved
  waiting : ∀ registry ∈ state.notifyRemoved, registry < state.registries.length

theorem Registered.initial : Registered .initial where
  member := by simp [State.initial, State.objs]
  live := by simp [State.initial, State.tagged]
  waiting := by simp [State.initial]

theorem Registered.one (registered : Registered state)
    (here : obj ∈ state.objs first) (there : obj ∈ state.objs second) : first = second := by
  have found := (registered.member obj first).mp here
  rw [(registered.member obj second).mp there] at found
  exact (Option.some.inj found).symm

def State.links (state : State) :
    (Nat → Option (Assoc Nat Nat)) × List ObjRegistry × Assoc Nat Nat × List Nat × List Nat :=
  (state.tagged, state.registries, state.objRegistry, state.notifyRemoved, state.told)

theorem tagged_pessimizeRecord (endpoint : List Char) (nodeId : Nat) (state : State) :
    (pessimizeRecord endpoint nodeId state).tagged = state.tagged := by
  funext other
  rw [State.tagged, pessimizeRecord, find_adjust]
  split
  case isTrue same =>
      rw [Option.map_map, same]
      congr 1
      funext entry
      simp only [Function.comp, pessimizeEntry]
      split
      case isTrue => rfl
      case isFalse => rfl
  case isFalse => rfl

theorem resilient_links (before : State) :
    Resilient fun state => state.links = before.links where
  changes := by
    intro state endpoint candidate same found
    rw [← same, State.links, tagged_pessimizeRecord]
    rfl
  sorts same _ := same

section Update

variable {state : State} (records sorted : List EndpointRecord)

theorem updated_tagged (nodeId : Nat) :
    (updated records sorted state).tagged nodeId =
      if OnNode sorted nodeId then some (((if OnNode (state.leftOut records) nodeId then none
          else state.tagged nodeId)).getD [])
      else if OnNode (state.leftOut records) nodeId then none else state.tagged nodeId := by
  by_cases on : OnNode sorted nodeId
  · obtain ⟨record, -, -, found⟩ := @updated_entry state records sorted nodeId on
    rw [State.tagged, found]
    split
    case isTrue => rfl
    case isFalse => rfl
  · rw [State.tagged, updated_other records sorted on]
    split
    case isTrue => rfl
    case isFalse => rfl

theorem updated_tagged_mem
    (after : (updated records sorted state).tagged nodeId = some tags)
    (inside : (tag, registry) ∈ tags) :
    state.tagged nodeId = some tags ∧ ¬ OnNode (state.leftOut records) nodeId := by
  rw [updated_tagged] at after
  by_cases lost : OnNode (state.leftOut records) nodeId
  · split at after
    case isTrue =>
        cases after
        contradiction
    case isFalse => contradiction
  · refine ⟨?_, lost⟩
    split at after
    case isTrue =>
        cases before : state.tagged nodeId with
        | none =>
          rw [before] at after
          cases after
          contradiction
        | some tags => rw [before] at after; exact after
    case isFalse => exact after

theorem mem_updated_notify (registry : Nat) :
    registry ∈ (updated records sorted state).notifyRemoved ↔
      registry ∈ state.notifyRemoved ∨ ∃ nodeId tags, OnNode (state.leftOut records) nodeId ∧
        state.tagged nodeId = some tags ∧ ∃ tag, (tag, registry) ∈ tags := by
  rw [updated_notify, mem_removeRecords_notify]
  apply or_congr .rfl
  constructor
  · intro lost
    obtain ⟨nodeId, entry, on, found, inside⟩ := lost
    exact ⟨nodeId, entry.taggedObjs, on, by rw [State.tagged, found]; rfl, inside⟩
  · intro lost
    obtain ⟨nodeId, tags, on, found, inside⟩ := lost
    obtain ⟨entry, exists', rfl⟩ := Option.map_eq_some_iff.mp found
    exact ⟨nodeId, entry, on, exists', inside⟩

@[simp] theorem updated_objs (registry : Nat) :
    (updated records sorted state).objs registry = state.objs registry := by
  rw [State.objs, updated_registries, State.objs]

theorem Registered.updated (registered : Registered state) :
    Registered (updated records sorted state) where
  member obj registry := by
    rw [updated_objs, updated_objRegistry]
    exact registered.member obj registry
  live := by
    intro nodeId tags tag registry after inside
    obtain ⟨before, kept⟩ := updated_tagged_mem records sorted after inside
    obtain ⟨node, quiet⟩ := registered.live before inside
    rw [updated_registries]
    refine ⟨node, ?_⟩
    rw [mem_updated_notify]
    intro notified
    rcases notified with waits | ⟨other, others, lost, found, otherTag, member⟩
    · exact quiet waits
    · have sameNode := (registered.live found member).1
      rw [node, Option.some.injEq] at sameNode
      exact kept (sameNode ▸ lost)
  waiting := by
    intro registry notified
    rw [updated_registries]
    rcases (mem_updated_notify records sorted registry).mp notified with
      waits | ⟨nodeId, tags, -, found, tag, inside⟩
    · exact registered.waiting registry waits
    · obtain ⟨registry', present, -⟩ :=
        Option.map_eq_some_iff.mp (registered.live found inside).1
      exact (List.getElem?_eq_some_iff.mp present).1

end Update

section Links

variable {state : State}

def objsOf (registries : List ObjRegistry) (registry : Nat) : List Nat :=
  ((registries[registry]?).map ObjRegistry.objs).getD []

theorem objs_eq (registry : Nat) : state.objs registry = objsOf state.registries registry := by
  rw [State.objs, objsOf]
  cases state.registries[registry]? with
  | none => rfl
  | some found => rfl

theorem mem_objsOf_add
    (present : registry < registries.length) :
    someone ∈ objsOf (registries.modify registry (.add obj)) other ↔
      someone ∈ objsOf registries other ∨ (other = registry ∧ someone = obj) := by
  rw [objsOf, List.getElem?_modify]
  by_cases same : registry = other
  · subst same
    rw [objsOf, List.getElem?_eq_getElem present]
    simp [ObjRegistry.add, or_comm]
  · simp [same, objsOf, Ne.symm same]

theorem mem_objsOf_remove :
    someone ∈ objsOf (registries.modify registry (.remove obj)) other ↔
      someone ∈ objsOf registries other ∧ ¬ (other = registry ∧ someone = obj) := by
  rw [objsOf, List.getElem?_modify]
  by_cases same : registry = other
  · subst same
    rw [objsOf]
    cases registries[registry]? with
    | none => simp
    | some found => simp [ObjRegistry.remove]
  · simp [same, objsOf, Ne.symm same]

theorem modify_nodeIds (registries : List ObjRegistry) (registry other : Nat) (same : ∀ found, (change found).nodeId = found.nodeId) :
    ((registries.modify registry change)[other]?).map ObjRegistry.nodeId =
      (registries[other]?).map ObjRegistry.nodeId := by
  rw [List.getElem?_modify]
  split
  case isTrue =>
      cases registries[other]? with
      | none => rfl
      | some found => simp [same]
  case isFalse => simp

/-- How the memberships change when an object enters one registry, or none, and leaves the one
it was in. -/
structure Moved (obj : Nat) (target : Option Nat) (before after : State) : Prop where
  tagged : after.tagged = before.tagged
  notify : after.notifyRemoved = before.notifyRemoved
  told : after.told = before.told
  addresses : after.addresses = before.addresses
  length : after.registries.length = before.registries.length
  nodeIds : ∀ registry : Nat, (after.registries[registry]?).map ObjRegistry.nodeId =
    (before.registries[registry]?).map ObjRegistry.nodeId
  others : ∀ someone registry, someone ≠ obj →
    (someone ∈ after.objs registry ↔ someone ∈ before.objs registry)
  itself : ∀ registry, obj ∈ after.objs registry ↔ target = some registry
  knows : ∀ someone, after.objRegistry.find someone =
    if someone = obj then target else before.objRegistry.find someone

theorem Registered.moved {after : State} (registered : Registered before)
    (moved : Moved obj target before after) :
    Registered after where
  member someone registry := by
    rw [moved.knows]
    by_cases same : someone = obj
    · subst same
      rw [if_pos rfl]
      exact moved.itself registry
    · rw [if_neg same, moved.others someone registry same]
      exact registered.member someone registry
  live := by
    intro nodeId tags tag registry found inside
    rw [moved.tagged] at found
    rw [moved.nodeIds, moved.notify]
    exact registered.live found inside
  waiting := by
    rw [moved.notify, moved.length]
    exact registered.waiting

structure Left (obj : Nat) (before : State) (registries : List ObjRegistry) : Prop where
  length : registries.length = before.registries.length
  nodeIds : ∀ registry : Nat, (registries[registry]?).map ObjRegistry.nodeId =
    (before.registries[registry]?).map ObjRegistry.nodeId
  members : ∀ someone registry, someone ∈ objsOf registries registry ↔
    someone ∈ before.objs registry ∧
      ¬ (before.objRegistry.find obj = some registry ∧ someone = obj)

theorem leaveRegistry_wp (obj : Nat)
    (inside : ∀ registry, state.objRegistry.find obj = some registry → obj ∈ state.objs registry) :
    Code.wp (leaveRegistry obj) ⟨fun _ after => ∃ registries, Left obj state registries ∧
      after = { state with registries := registries }, nofun, fun _ => False⟩ state := by
  simp only [leaveRegistry, wp_rules]
  cases found : state.objRegistry.find obj with
  | none =>
    simp only [wp_pure]
    refine ⟨state.registries, ⟨rfl, fun _ => rfl, ?_⟩, rfl⟩
    simp [found, objs_eq]
  | some registry =>
    simp only [inside registry found]
    refine ⟨_, ⟨length_modify _ _ _, ?_, ?_⟩, rfl⟩
    · exact fun other => modify_nodeIds _ _ _ fun _ => rfl
    · intro someone other
      rw [objs_eq, mem_objsOf_remove, found, Option.some.injEq, @eq_comm _ registry]

theorem unlink_wp (registered : Registered state) (obj : Nat) :
    Code.wp (unlink obj) ⟨fun _ after => Moved obj none state after, nofun, fun _ => False⟩
      state := by
  rw [unlink, wp_bind]
  refine wp_mono_stops (leaveRegistry_wp obj fun registry => (registered.member obj registry).mpr)
    ?_ nofun fun _ => id
  intro _ after left
  obtain ⟨registries, left, rfl⟩ := left
  refine ⟨rfl, rfl, rfl, rfl, left.length, left.nodeIds, ?_, ?_, ?_⟩
  · intro someone registry differ
    rw [objs_eq, left.members]
    simp [differ]
  · intro registry
    rw [objs_eq, left.members, registered.member]
    simp
  · intro someone
    exact Assoc.find_erase _ _ _

theorem link_wp (registered : Registered state) (obj : Nat)
    (present : registry < state.registries.length) :
    Code.wp (link obj registry) ⟨fun _ after => Moved obj (some registry) state after, by rintro ⟨⟩,
      fun _ => False⟩ state := by
  simp only [link, wp_rules]
  constructor
  · -- It is there already.
    intro there
    have knows := (registered.member obj registry).mp there
    refine ⟨rfl, rfl, rfl, rfl, rfl, fun _ => rfl, fun _ _ _ => .rfl, ?_, ?_⟩
    · intro other
      rw [registered.member, knows]
    · intro someone
      split
      case isTrue same => rw [same, knows]
      case isFalse => rfl
  · intro absent
    have members : ∀ someone other, someone ∈
        objsOf (state.registries.modify registry (.add obj)) other ↔
          someone ∈ state.objs other ∨ (other = registry ∧ someone = obj) := by
      intro someone other
      rw [mem_objsOf_add present, objs_eq]
    refine wp_mono_stops (leaveRegistry_wp obj ?_) ?_ (by simp) fun _ => id
    · intro other found
      rw [objs_eq, members]
      exact .inl ((registered.member obj other).mpr found)
    · intro _ after left
      obtain ⟨registries, left, rfl⟩ := left
      have inside := left.members
      simp only [objs_eq, members] at inside
      refine ⟨rfl, rfl, rfl, rfl, left.length.trans (length_modify _ _ _), ?_, ?_, ?_, ?_⟩
      · intro other
        exact (left.nodeIds other).trans (modify_nodeIds _ _ _ fun _ => rfl)
      · intro someone other differ
        rw [objs_eq, inside]
        simp [differ, objs_eq]
      · intro other
        rw [objs_eq, inside, ← objs_eq, registered.member]
        have elsewhere : state.objRegistry.find obj ≠ some registry := by
          rw [ne_eq, ← registered.member]
          exact absent
        grind
      · intro someone
        exact Assoc.find_insert _ _ _ _

structure Created (nodeId tag : Nat) (before after : State) : Prop where
  addresses : after.addresses = before.addresses
  notify : after.notifyRemoved = before.notifyRemoved
  told : after.told = before.told
  knows : after.objRegistry = before.objRegistry
  registries : after.registries = before.registries ++ [⟨nodeId, []⟩]
  there : ∃ tags, before.tagged nodeId = some tags ∧ tags.find tag = none ∧
    after.tagged nodeId = some (tags.insert tag before.registries.length)
  elsewhere : ∀ other, other ≠ nodeId → after.tagged other = before.tagged other

theorem createRegistry_created
    (found : state.knownEndpointsByNodeId.find nodeId = some entry)
    (untagged : entry.taggedObjs.find tag = none) :
    Created nodeId tag state (createRegistry nodeId tag entry state) where
  addresses := by
    rw [State.addresses, shown_createRegistry found]
    rfl
  notify := rfl
  told := rfl
  knows := rfl
  registries := rfl
  there := ⟨entry.taggedObjs, by rw [State.tagged, found]; rfl, untagged, by
    simp [State.tagged, createRegistry]⟩
  elsewhere other differ := by simp [State.tagged, createRegistry, differ]

variable {after : State} {nodeId tag : Nat}

theorem Created.objs (created : Created nodeId tag state after) (registry : Nat) :
    after.objs registry = state.objs registry := by
  rw [objs_eq, objs_eq, created.registries, objsOf, objsOf, List.getElem?_append]
  split
  case isTrue => rfl
  case isFalse outside =>
      rw [List.getElem?_eq_none (Nat.not_lt.mp outside)]
      cases registry - state.registries.length with
      | zero => rfl
      | succ distance => rfl

theorem Created.tagged_mem (created : Created nodeId tag state after) (found : after.tagged node = some tags)
    (inside : (key, registry) ∈ tags) :
    (∃ earlier, state.tagged node = some earlier ∧ (key, registry) ∈ earlier) ∨
      (node = nodeId ∧ registry = state.registries.length) := by
  by_cases same : node = nodeId
  · subst same
    obtain ⟨earlier, before, -, now⟩ := created.there
    rw [now, Option.some.injEq] at found
    subst found
    rcases Assoc.mem_insert.mp inside with new | ⟨old, -⟩
    · exact .inr ⟨rfl, congrArg Prod.snd new⟩
    · exact .inl ⟨earlier, before, old⟩
  · exact .inl ⟨tags, (created.elsewhere node same) ▸ found, inside⟩

theorem Registered.created (registered : Registered state)
    (created : Created nodeId tag state after) : Registered after where
  member obj registry := by
    rw [created.objs, created.knows]
    exact registered.member obj registry
  live := by
    intro node tags key registry found inside
    rw [created.notify, created.registries]
    rcases created.tagged_mem found inside with ⟨earlier, before, old⟩ | ⟨rfl, rfl⟩
    · obtain ⟨known, quiet⟩ := registered.live before old
      obtain ⟨registry', present, node'⟩ := Option.map_eq_some_iff.mp known
      rw [List.getElem?_append_left (List.getElem?_eq_some_iff.mp present).1]
      exact ⟨known, quiet⟩
    · refine ⟨by simp, ?_⟩
      intro waits
      exact Nat.lt_irrefl _ (registered.waiting _ waits)
  waiting := by
    intro registry waits
    rw [created.notify] at waits
    rw [created.registries, length_append]
    exact Nat.lt_add_right _ (registered.waiting registry waits)

/-- Linking finds no entry, or it moves the object to a registry of the node, which may be
new. -/
theorem linkObjToEndpoint_wp (registered : Registered state) (nodeId obj tag : Nat) :
    Code.wp (linkObjToEndpoint nodeId obj tag) ⟨fun _ after => after = state ∨
      ∃ middle registry, (middle = state ∨ Created nodeId tag state middle) ∧
        Registered middle ∧ registry ∉ middle.notifyRemoved ∧
        Moved obj (some registry) middle after, by rintro ⟨⟩, fun _ => False⟩ state := by
  simp only [linkObjToEndpoint, wp_rules]
  cases found : state.knownEndpointsByNodeId.find nodeId with
  | none => exact .inl rfl
  | some entry =>
    have tags : state.tagged nodeId = some entry.taggedObjs := by
      rw [State.tagged, found]
      rfl
    cases known : entry.taggedObjs.find tag with
    | some registry =>
      simp only [known]
      obtain ⟨node, quiet⟩ := registered.live tags (Assoc.mem_of_find known)
      obtain ⟨registry', present, -⟩ := Option.map_eq_some_iff.mp node
      refine wp_mono_stops (link_wp registered obj (List.getElem?_eq_some_iff.mp present).1) ?_
        (by simp) fun _ => id
      intro _ after moved
      exact .inr ⟨state, registry, .inl rfl, registered, quiet, moved⟩
    | none =>
      simp only [known]
      have created := createRegistry_created found known
      have middle := registered.created created
      refine wp_mono_stops (link_wp middle obj (by simp [created.registries])) ?_ (by simp)
        fun _ => id
      intro _ after moved
      refine .inr ⟨_, _, .inr created, middle, ?_, moved⟩
      intro waits
      exact Nat.lt_irrefl _ (registered.waiting _ waits)

end Links

def Event.IsOf (obj : Nat) : Event → Prop
  | .linkObjToEndpoint _ other _ => other = obj
  | .unlink other => other = obj
  | _ => False

def Event.tells (state : State) : Event → List Nat
  | .notifyEndpointRemoved registry => state.objs registry
  | _ => []

/-- The notices of one event.  An update makes the objects of exactly those nodes wait that have
no endpoint after it, and the others stay linked; what waits is told. -/
structure NoticesExact (before : State) (event : Event) (after : State) : Prop where
  removed : ∀ records sorted obj nodeId, event = .setNewState records sorted →
    Linked before obj nodeId → ¬ OnNode after.records nodeId → AwaitsNotice after obj
  kept : ∀ records sorted obj nodeId, event = .setNewState records sorted →
    Linked before obj nodeId → OnNode after.records nodeId →
      Linked after obj nodeId ∧ ¬ AwaitsNotice after obj
  others : ∀ obj nodeId, (∀ records sorted, event ≠ .setNewState records sorted) →
    ¬ event.IsOf obj → Linked before obj nodeId → Linked after obj nodeId
  cause : ∀ obj, AwaitsNotice after obj → AwaitsNotice before obj ∨
    ∃ records sorted nodeId, event = .setNewState records sorted ∧ Linked before obj nodeId ∧
      ¬ OnNode after.records nodeId
  told : after.told = before.told ++ event.tells before

/-- The nodes that lose an address by an update are those it leaves without one. -/
def LeavesWhole (state : State) (records : List EndpointRecord) : Prop :=
  ∀ record ∈ state.records, (OnNode (state.leftOut records) record.nodeId ↔
    ¬ OnNode (uniqRec records) record.nodeId)

instance (state : State) (records : List EndpointRecord) : Decidable (LeavesWhole state records) :=
  inferInstanceAs (Decidable (∀ record ∈ state.records, _))

def NodesLeaveWhole (state : State) : Event → Prop
  | .setNewState records _ => LeavesWhole state records
  | _ => True

instance (state : State) : (event : Event) → Decidable (NodesLeaveWhole state event) := by
  rintro ⟨⟩ <;> dsimp only [NodesLeaveWhole] <;> infer_instance

theorem NodesLeaveWhole.loses (whole : NodesLeaveWhole state event) :
    NodesLoseAddresses state event := by
  cases event with
  | setNewState records sorted =>
    intro record member off
    exact (whole record member).mpr off
  | notifyEndpointRemoved registry => trivial
  | pessimizeEndpoint endpoint sorted => trivial
  | pessimizeNode nodeId sorted => trivial
  | linkObjToEndpoint nodeId obj tag => trivial
  | unlink obj => trivial

theorem NoticesExact.of_other {after : State}
    (noUpdate : ∀ records sorted, event ≠ .setNewState records sorted)
    (others : ∀ obj nodeId, ¬ event.IsOf obj → Linked before obj nodeId → Linked after obj nodeId)
    (cause : ∀ obj, AwaitsNotice after obj → AwaitsNotice before obj)
    (told : after.told = before.told ++ event.tells before) : NoticesExact before event after where
  removed records sorted _ _ update := absurd update (noUpdate records sorted)
  kept records sorted _ _ update := absurd update (noUpdate records sorted)
  others obj nodeId _ := others obj nodeId
  cause obj waits := .inl (cause obj waits)
  told := told

section Notices

variable {before after : State}

theorem NoticesExact.of_links (noUpdate : ∀ records sorted, event ≠ .setNewState records sorted)
    (noNotice : ∀ registry, event ≠ .notifyEndpointRemoved registry)
    (same : after.links = before.links) : NoticesExact before event after := by
  have tagged : after.tagged = before.tagged := congrArg (fun part => part.1) same
  have registries : after.registries = before.registries := congrArg (fun part => part.2.1) same
  have notify : after.notifyRemoved = before.notifyRemoved :=
    congrArg (fun part => part.2.2.2.1) same
  have told : after.told = before.told := congrArg (fun part => part.2.2.2.2) same
  have objs : ∀ registry, after.objs registry = before.objs registry := by
    intro registry
    rw [objs_eq, objs_eq, registries]
  refine .of_other noUpdate ?_ ?_ ?_
  · intro obj nodeId _ linked
    simpa only [Linked, tagged, objs] using linked
  · intro obj waits
    simpa only [AwaitsNotice, notify, objs] using waits
  · rw [told]
    cases event with
    | notifyEndpointRemoved registry => exact absurd rfl (noNotice registry)
    | setNewState records sorted => exact (append_nil _).symm
    | pessimizeEndpoint endpoint sorted => exact (append_nil _).symm
    | pessimizeNode nodeId sorted => exact (append_nil _).symm
    | linkObjToEndpoint nodeId obj tag => exact (append_nil _).symm
    | unlink obj => exact (append_nil _).symm

theorem Moved.linked (moved : Moved obj target before after) (differ : someone ≠ obj)
    (linked : Linked before someone nodeId) : Linked after someone nodeId := by
  obtain ⟨tags, tag, registry, found, inside, member⟩ := linked
  exact ⟨tags, tag, registry, moved.tagged ▸ found, inside,
    (moved.others someone registry differ).mpr member⟩

theorem Moved.awaits (moved : Moved obj target before after)
    (quiet : ∀ registry, target = some registry → registry ∉ before.notifyRemoved)
    (waits : AwaitsNotice after someone) : AwaitsNotice before someone := by
  obtain ⟨registry, notified, member⟩ := waits
  rw [moved.notify] at notified
  by_cases same : someone = obj
  · subst same
    exact absurd notified (quiet registry ((moved.itself registry).mp member))
  · exact ⟨registry, notified, (moved.others someone registry same).mp member⟩

theorem Created.linked (created : Created nodeId tag before after)
    (linked : Linked before someone node) : Linked after someone node := by
  obtain ⟨tags, key, registry, found, inside, member⟩ := linked
  rw [← created.objs] at member
  by_cases same : node = nodeId
  · subst same
    obtain ⟨earlier, known, untagged, now⟩ := created.there
    rw [known, Option.some.injEq] at found
    subst found
    refine ⟨_, key, registry, now, ?_, member⟩
    exact Assoc.mem_insert.mpr (.inr ⟨inside, Assoc.find_eq_none.mp untagged _ inside⟩)
  · exact ⟨tags, key, registry, (created.elsewhere node same).symm ▸ found, inside, member⟩

theorem Created.awaits (created : Created nodeId tag before after)
    (waits : AwaitsNotice after someone) : AwaitsNotice before someone := by
  obtain ⟨registry, notified, member⟩ := waits
  exact ⟨registry, created.notify ▸ notified, created.objs registry ▸ member⟩

/-- An update makes exactly the objects of the nodes that lose an address wait. -/
theorem updated_notices (registered : Registered before) (exact : IndexExact before) (order : SortedAs (uniqRec records) sorted)
    (whole : LeavesWhole before records) :
    NoticesExact before (.setNewState records sorted) (updated records sorted before) := by
  have nodes : ∀ nodeId tags, before.tagged nodeId = some tags →
      (OnNode (before.leftOut records) nodeId ↔ ¬ OnNode sorted nodeId) := by
    intro nodeId tags found
    have present : (before.shown nodeId).isSome = true := by
      obtain ⟨entry, inside, -⟩ := Option.map_eq_some_iff.mp found
      rw [State.shown, inside]
      rfl
    obtain ⟨record, member, rfl⟩ := ((exact nodeId).1).mp present
    rw [onNode_perm order.1]
    exact whole record member
  refine ⟨?_, ?_, ?_, ?_, ?_⟩
  · intro _ _ obj nodeId _ linked off
    obtain ⟨tags, tag, registry, found, inside, member⟩ := linked
    rw [updated_records] at off
    refine ⟨registry, (mem_updated_notify records sorted registry).mpr (.inr ⟨nodeId, tags,
      (nodes nodeId tags found).mpr off, found, tag, inside⟩), ?_⟩
    rw [updated_objs]
    exact member
  · intro _ _ obj nodeId _ linked on
    obtain ⟨tags, tag, registry, found, inside, member⟩ := linked
    rw [updated_records] at on
    have keeps : ¬ OnNode (before.leftOut records) nodeId := by
      rw [nodes nodeId tags found]
      exact fun off => off on
    have after : (updated records sorted before).tagged nodeId = some tags := by
      rw [updated_tagged, if_pos on, if_neg keeps, found]
      rfl
    refine ⟨⟨tags, tag, registry, after, inside, by rw [updated_objs]; exact member⟩, ?_⟩
    intro waits
    obtain ⟨other, notified, there⟩ := waits
    rw [updated_objs] at there
    obtain rfl := registered.one member there
    exact ((registered.updated records sorted).live after inside).2 notified
  · intro obj nodeId noUpdate
    exact absurd rfl (noUpdate records sorted)
  · intro obj waits
    obtain ⟨registry, notified, member⟩ := waits
    rw [updated_objs] at member
    rcases (mem_updated_notify records sorted registry).mp notified with
      earlier | ⟨nodeId, tags, lost, found, tag, inside⟩
    · exact .inl ⟨registry, earlier, member⟩
    · refine .inr ⟨records, sorted, nodeId, rfl, ⟨tags, tag, registry, found, inside, member⟩, ?_⟩
      rw [updated_records]
      exact (nodes nodeId tags found).mp lost
  · rw [updated_told]
    exact (append_nil _).symm

theorem react_registered (known : Known before) (registered : Registered before)
    (possible : Possible before event) :
    (react event).wp (.keeping Registered fun _ => False) before := by
  have unlinked : ∀ after, after.links = before.links → Registered after := by
    intro after same
    have tagged : after.tagged = before.tagged := congrArg (fun part => part.1) same
    have registries : after.registries = before.registries := congrArg (fun part => part.2.1) same
    have knows : after.objRegistry = before.objRegistry := congrArg (fun part => part.2.2.1) same
    have notify : after.notifyRemoved = before.notifyRemoved :=
      congrArg (fun part => part.2.2.2.1) same
    refine ⟨?_, ?_, ?_⟩
    · intro obj registry
      rw [objs_eq, registries, knows, ← objs_eq]
      exact registered.member obj registry
    · intro nodeId tags tag registry found inside
      rw [registries, notify]
      exact registered.live (tagged ▸ found) inside
    · rw [registries, notify]
      exact registered.waiting
  cases event with
  | setNewState records sorted =>
    simp only [react, wp_rules, setNewState_wp known possible]
    exact registered.updated records sorted
  | notifyEndpointRemoved registry =>
    have fewer : ∀ other, other ∈ before.notifyRemoved.erase registry →
        other ∈ before.notifyRemoved := fun _ => mem_of_mem_erase
    exact ⟨registered.member, fun found inside =>
      ⟨(registered.live found inside).1, fun waits =>
        (registered.live found inside).2 (fewer _ waits)⟩,
      fun other waits => registered.waiting other (fewer other waits)⟩
  | pessimizeEndpoint endpoint sorted =>
    exact wp_mono_stops ((resilient_links before).pessimizeEndpoint rfl possible)
      (fun _ => unlinked) (fun _ => unlinked) fun _ => id
  | pessimizeNode nodeId sorted =>
    exact wp_mono_stops ((resilient_links before).pessimizeNode rfl possible)
      (fun _ => unlinked) (fun _ => unlinked) fun _ => id
  | linkObjToEndpoint nodeId obj tag =>
    rw [react, wp_bind]
    refine wp_mono_stops (linkObjToEndpoint_wp registered nodeId obj tag) ?_ (by simp) fun _ => id
    intro _ after linked
    rcases linked with rfl | ⟨middle, registry, -, stillRegistered, -, moved⟩
    · exact registered
    · exact stillRegistered.moved moved
  | unlink obj =>
    exact wp_mono_stops (unlink_wp registered obj)
      (fun _ _ moved => registered.moved moved) (by simp) fun _ => id

theorem react_notices (known : Known before) (exact : IndexExact before)
    (registered : Registered before) (possible : Possible before event)
    (whole : NodesLeaveWhole before event) :
    (react event).wp (.keeping (NoticesExact before event) fun _ => False) before := by
  cases event with
  | setNewState records sorted =>
    simp only [react, wp_rules, setNewState_wp known possible]
    exact updated_notices registered exact possible whole
  | notifyEndpointRemoved registry =>
    refine .of_other (by simp) (fun _ _ _ linked => linked) ?_ rfl
    intro obj waits
    obtain ⟨other, notified, member⟩ := waits
    exact ⟨other, mem_of_mem_erase notified, member⟩
  | pessimizeEndpoint endpoint sorted =>
    exact wp_mono_stops ((resilient_links before).pessimizeEndpoint rfl possible)
      (fun _ _ => .of_links (by simp) (by simp)) (fun _ _ => .of_links (by simp) (by simp)) fun _ => id
  | pessimizeNode nodeId sorted =>
    exact wp_mono_stops ((resilient_links before).pessimizeNode rfl possible)
      (fun _ _ => .of_links (by simp) (by simp)) (fun _ _ => .of_links (by simp) (by simp)) fun _ => id
  | linkObjToEndpoint nodeId obj tag =>
    rw [react, wp_bind]
    refine wp_mono_stops (linkObjToEndpoint_wp registered nodeId obj tag) ?_ (by simp) fun _ => id
    intro _ after linked
    rcases linked with rfl | ⟨middle, registry, created, -, quiet, moved⟩
    · exact .of_links (by simp) (by simp) rfl
    · have target : ∀ other, some registry = some other → other ∉ middle.notifyRemoved := by
        intro other same
        cases same
        exact quiet
      rcases created with rfl | created
      · exact .of_other (by simp) (fun _ _ other => moved.linked (.symm other))
          (fun _ => moved.awaits target) (moved.told.trans (append_nil _).symm)
      · exact .of_other (by simp)
          (fun _ _ other linked => moved.linked (.symm other) (created.linked linked))
          (fun _ waits => created.awaits (moved.awaits target waits))
          ((moved.told.trans created.told).trans (append_nil _).symm)
  | unlink obj =>
    refine wp_mono_stops (unlink_wp registered obj) ?_ (by simp) fun _ => id
    intro _ after moved
    exact .of_other (by simp) (fun _ _ other => moved.linked (.symm other))
      (fun _ => moved.awaits (by simp)) (moved.told.trans (append_nil _).symm)

end Notices

def Sound (state : State) : Prop :=
  (Known state ∧ Covered state) ∧ Registered state

theorem react_sound (sound : Sound before) (possible : Possible before event) :
    (react event).wp (.keeping Sound fun _ => False) before := by
  obtain ⟨⟨known, covered⟩, registered⟩ := sound
  exact wp_mono_stops (wp_and (react_covered known covered possible)
    (react_registered known registered possible)) (fun _ _ => id) (fun _ _ => id)
    fun _ stops => stops.2

theorem Sound.initial : Sound .initial := ⟨⟨.initial, .initial⟩, .initial⟩

/-- No assertion of the elector fails in any run. -/
theorem elector_never_stops
    (reached : Reachable react Possible .initial state) (possible : Possible state event) :
    (react event).step state ≠ .error assertion := by
  intro failed
  exact reached.stops_only .initial (fun _ _ => react_sound) possible failed

/-- In every run the index by address has exactly the current records, every current node is in
the index by node, and a registry has just the objects that point to it, so none is in two. -/
theorem elector_indexes_agree (reached : Reachable react Possible .initial state) :
    (∀ endpoint record, state.knownEndpoints.find endpoint = some record ↔
      record ∈ state.records ∧ record.endpoint = endpoint) ∧ Covered state ∧
    ∀ obj registry, obj ∈ state.objs registry ↔ state.objRegistry.find obj = some registry := by
  have sound : Sound state := reached.invariant .initial fun _ _ => react_sound
  obtain ⟨⟨known, covered⟩, registered⟩ := sound
  exact ⟨known.current, covered, registered.member⟩

theorem elector_indexes_agree_after_relink :
    ∃ state, Reachable react Possible .initial state ∧ 7 ∈ state.objs 1 ∧ 7 ∉ state.objs 0 := by
  obtain ⟨state, reached, linked⟩ : ∃ state, Reachable react Possible .initial state ∧
      state.objRegistry.find 7 = some 1 :=
    exists_reachable [.setNewState [⟨['a'], 0, [], 1, []⟩, ⟨['b'], 1, [], 2, []⟩]
        [⟨['a'], 0, [], 1, []⟩, ⟨['b'], 1, [], 2, []⟩],
      .linkObjToEndpoint 2 7 0, .linkObjToEndpoint 1 7 0] (by decide +kernel)
  have member := (elector_indexes_agree reached).2.2 7
  exact ⟨state, reached, (member 1).mpr linked, by simp [member, linked]⟩

/-- While the nodes that lose an address are those left without one, the objects of a node are
told that their endpoint was removed exactly when an update leaves the node without any, and stay
linked otherwise. -/
theorem removal_notices_exact {before after : State} {event : Event}
    (reached : Reachable react
      (fun state event => Possible state event ∧ NodesLeaveWhole state event) .initial before)
    (possible : Possible before event) (whole : NodesLeaveWhole before event)
    (taken : (react event).step before = .ok after) : NoticesExact before event after := by
  have exact := (reachable_exact (reached.mono fun _ _ allowed =>
    ⟨allowed.1, allowed.2.loses⟩)).2
  have sound : Sound before := (reached.mono fun _ _ allowed => allowed.1).invariant .initial
    fun _ _ => react_sound
  exact wp_step (react_notices sound.1.1 exact sound.2 possible whole) taken

/-- Object 7 of node 2 comes to wait when the only address of the node is left out; object 5 of
node 1 stays linked while its addresses stay. -/
theorem removal_notices_exact_node :
    ∃ before after, Reachable react
        (fun state event => Possible state event ∧ NodesLeaveWhole state event) .initial before ∧
      (Linked before 7 2 ∧ ¬ OnNode after.records 2 ∧ Linked before 5 1 ∧ OnNode after.records 1) ∧
      NoticesExact before (.setNewState [⟨['a'], 0, [], 1, []⟩] [⟨['a'], 0, [], 1, []⟩]) after := by
  obtain ⟨before, reached, possible, whole, seven, five, after, taken, gone, stays⟩ : ∃ before,
      Reachable react (fun state event => Possible state event ∧ NodesLeaveWhole state event) .initial before ∧
      Possible before (.setNewState [⟨['a'], 0, [], 1, []⟩] [⟨['a'], 0, [], 1, []⟩]) ∧
      NodesLeaveWhole before (.setNewState [⟨['a'], 0, [], 1, []⟩] [⟨['a'], 0, [], 1, []⟩]) ∧
      Linked before 7 2 ∧ Linked before 5 1 ∧
      ∃ after, (react (.setNewState [⟨['a'], 0, [], 1, []⟩] [⟨['a'], 0, [], 1, []⟩])).step before = .ok after ∧
        ¬ OnNode after.records 2 ∧ OnNode after.records 1 :=
    exists_reachable
      [.setNewState [⟨['a'], 0, [], 1, []⟩, ⟨['b'], 1, [], 2, []⟩]
        [⟨['a'], 0, [], 1, []⟩, ⟨['b'], 1, [], 2, []⟩],
       .linkObjToEndpoint 2 7 0, .linkObjToEndpoint 1 5 0] (by decide +kernel)
  exact ⟨before, after, reached, ⟨seven, gone, five, stays⟩,
    removal_notices_exact reached possible whole taken⟩

theorem exists_notice {goal : State → Prop} (first second : List EndpointRecord)
    (ran : Permitted react Possible .initial [.setNewState first first, .linkObjToEndpoint 1 7 0] ∧
      ∃ before, run react .initial [.setNewState first first, .linkObjToEndpoint 1 7 0] = .ok before ∧
        Possible before (.setNewState second second) ∧ Linked before 7 1 ∧
        ∃ after, (react (.setNewState second second)).step before = .ok after ∧ goal after) :
    ∃ before after event, Reachable react Possible .initial before ∧ Possible before event ∧
      (react event).step before = .ok after ∧ Linked before 7 1 ∧ goal after := by
  obtain ⟨before, reached, possible, linked, after, taken, holds⟩ := exists_reachable _ ran
  exact ⟨before, after, _, reached, possible, taken, linked, holds⟩

/-- A node that loses one of two addresses has its objects told, and they are linked to it no
more, although it still has an endpoint; when its only address moves to another node nobody is
told. -/
theorem removal_notices_by_address :
    (∃ before after event, Reachable react Possible .initial before ∧ Possible before event ∧
      (react event).step before = .ok after ∧ Linked before 7 1 ∧ OnNode after.records 1 ∧
      AwaitsNotice after 7 ∧ ¬ Linked after 7 1) ∧
    ∃ before after event, Reachable react Possible .initial before ∧ Possible before event ∧
      (react event).step before = .ok after ∧ Linked before 7 1 ∧ ¬ OnNode after.records 1 ∧
      ¬ AwaitsNotice after 7 :=
  ⟨exists_notice [⟨['a'], 0, [], 1, []⟩, ⟨['b'], 0, [], 1, []⟩] [⟨['a'], 0, [], 1, []⟩]
      (by decide +kernel),
    exists_notice [⟨['a'], 0, [], 1, []⟩] [⟨['a'], 0, [], 2, []⟩] (by decide +kernel)⟩

end YdbSdk.Endpoints
