import YdbSdk.Topic.ReadSession.EventsQueue

namespace YdbSdk.Topic.ReadSession

open YdbSdk.Control YdbSdk.Data List

/-! # Parents are read before their children

A session of a parent partition that ends is registered with the children.  The check looks at
these entries up to the first one that is later than the child's session, so it relies on
their order.
-/

inductive HierarchyEvent where
  | registerParentPartition (partitionId parentPartitionId parentPartitionSessionId : Nat)
  | finishReading (partitionSessionId : Nat)
  | unregisterPartition (partitionId partitionSessionId : Nat)

def reactHierarchy (env : Environment) : HierarchyEvent → Queue Unit
  | .registerParentPartition partitionId parentPartitionId parentPartitionSessionId =>
    react env (.registerParentPartition partitionId parentPartitionId parentPartitionSessionId)
  | .finishReading partitionSessionId => react env (.finishReading partitionSessionId)
  | .unregisterPartition partitionId partitionSessionId =>
    react env (.unregisterPartition partitionId partitionSessionId)

def registered (partitionId : Nat) (events : List HierarchyEvent) : List ParentInfo :=
  events.filterMap fun event => match event with
    | .registerParentPartition child parent session =>
      if child = partitionId then some ⟨parent, session⟩ else none
    | _ => none

def finished (events : List HierarchyEvent) : List Nat :=
  events.filterMap fun event => match event with
    | .finishReading session => some session
    | _ => none

def latest (infos : List ParentInfo) (parent session : Nat) : Option Nat :=
  (infos.filter fun info => info.partitionId = parent && info.partitionSessionId ≤ session).getLast?.map
    ParentInfo.partitionSessionId

def State.parents (state : State) (partitionId : Nat) : List ParentInfo :=
  (state.hierarchyData.find partitionId).getD []

/-- Parent sessions are registered with a child in the order of their ids, and only sessions
that were read to the end are dropped. -/
def Ordered (state : State) : HierarchyEvent → Prop
  | .registerParentPartition partitionId _ session =>
    ∀ info ∈ state.parents partitionId, info.partitionSessionId ≤ session
  | .finishReading _ => True
  | .unregisterPartition partitionId session => ∀ entry ∈ state.hierarchyData, ∀ info ∈ entry.2,
      info.partitionId = partitionId → info.partitionSessionId < session →
        info.partitionSessionId ∈ state.readingFinishedData

instance (state : State) (event : HierarchyEvent) : Decidable (Ordered state event) := by
  cases event <;> unfold Ordered <;> infer_instance

section Latest

variable {infos : List ParentInfo} {info : ParentInfo} {parent session number : Nat}

theorem latest_concat : latest (infos ++ [info]) parent session =
    if info.partitionId = parent ∧ info.partitionSessionId ≤ session then
      some info.partitionSessionId
    else latest infos parent session := by
  unfold latest
  rw [filter_append]
  by_cases within : info.partitionId = parent ∧ info.partitionSessionId ≤ session
  · simp [within]
  · have dropped : ([info].filter fun info =>
        info.partitionId = parent && info.partitionSessionId ≤ session) = [] := by
      simpa using within
    rw [if_neg within, dropped, append_nil]

theorem mem_of_latest (found : latest infos parent session = some number) :
    ∃ info ∈ infos, info.partitionId = parent ∧ info.partitionSessionId = number ∧ number ≤ session := by
  simp only [latest, Option.map_eq_some_iff] at found
  obtain ⟨info, last, rfl⟩ := found
  have member := mem_of_getLast? last
  simp only [mem_filter, Bool.and_eq_true, decide_eq_true_eq] at member
  exact ⟨info, member.1, member.2.1, rfl, member.2.2⟩

theorem takeWhile_eq_filter
    (ordered : infos.Pairwise fun first second => first.partitionSessionId ≤ second.partitionSessionId) :
    (infos.takeWhile fun info => info.partitionSessionId ≤ session) =
      infos.filter fun info => info.partitionSessionId ≤ session := by
  induction infos with
  | nil => rfl
  | cons first rest ih =>
    obtain ⟨before, remaining⟩ := pairwise_cons.mp ordered
    by_cases within : first.partitionSessionId ≤ session
    · simp [within, ih remaining]
    · have none : ∀ info ∈ rest, ¬ info.partitionSessionId ≤ session := by
        intro info member
        have := before info member
        omega
      simp only [takeWhile_cons, filter_cons, within]
      exact (filter_eq_nil_iff.mpr (by simpa using none)).symm

theorem find_index (infos : List ParentInfo) (parent : Nat) :
    let index : Assoc Nat Nat := infos.foldl
      (fun index info => index.insert info.partitionId info.partitionSessionId) []
    index.Distinct ∧ index.find parent = (infos.filter fun info => info.partitionId = parent).getLast?.map
      ParentInfo.partitionSessionId := by
  induction infos using List.reverseRecOn with
  | nil => exact ⟨.nil, rfl⟩
  | append_singleton rest info ih =>
    simp only [foldl_append] at ih ⊢
    refine ⟨ih.1.insert _ _, ?_⟩
    by_cases same : info.partitionId = parent
    · simp [same]
    · simp [same, Ne.symm same, ih.2]

end Latest

theorem allParentSessionsHasBeenRead_iff {state : State}
    (ordered : (state.parents partitionId).Pairwise
      fun first second => first.partitionSessionId ≤ second.partitionSessionId) :
    state.allParentSessionsHasBeenRead partitionId session = true ↔
      ∀ parent number, latest (state.parents partitionId) parent session = some number →
        number ∈ state.readingFinishedData := by
  have scanned := @takeWhile_eq_filter (state.parents partitionId) session ordered
  have index := find_index ((state.parents partitionId).filter fun info =>
    info.partitionSessionId ≤ session)
  have filtered (parent : Nat) := (index parent).2
  simp only [filter_filter] at filtered
  have distinct := (index 0).1
  simp only [State.allParentSessionsHasBeenRead, State.getParentPartitionSessions, all_eq_true,
    mem_map, contains_iff_mem]
  rw [show (state.hierarchyData.find partitionId).getD [] = state.parents partitionId from rfl, scanned]
  constructor
  · intro read parent number found
    exact read number ⟨(parent, number), Assoc.mem_of_find ((filtered parent).trans found), rfl⟩
  · rintro read _ ⟨⟨parent, number⟩, member, rfl⟩
    exact read parent number ((filtered parent).symm.trans (distinct.find_eq_some.mpr member))

structure Tracks (events : List HierarchyEvent) (state : State) : Prop where
  distinct : state.hierarchyData.Distinct
  ordered : ∀ partitionId, (state.parents partitionId).Pairwise
    fun first second => first.partitionSessionId ≤ second.partitionSessionId
  latest : ∀ partitionId parent session,
    latest (state.parents partitionId) parent session = latest (registered partitionId events) parent session ∨
      latest (state.parents partitionId) parent session = none ∧
        ∀ number ∈ latest (registered partitionId events) parent session,
          number ∈ state.readingFinishedData
  finished : ∀ number, number ∈ state.readingFinishedData ↔ number ∈ finished events

variable {env : Environment} {events : List HierarchyEvent} {state after : State}

theorem tracks_start : Tracks [] {} :=
  ⟨.nil, fun _ => .nil, fun _ _ _ => .inl rfl, fun _ => .rfl⟩

theorem Tracks.register {child parent session : Nat} (tracks : Tracks events state)
    (above : ∀ info ∈ state.parents child, info.partitionSessionId ≤ session)
    (distinct : after.hierarchyData.Distinct) (read : after.readingFinishedData = state.readingFinishedData)
    (parents : ∀ other, after.parents other =
      if other = child then state.parents child ++ [⟨parent, session⟩] else state.parents other) :
    Tracks (events ++ [.registerParentPartition child parent session]) after := by
  have history (other : Nat) : registered other (events ++ [.registerParentPartition child parent session]) =
      if other = child then registered child events ++ [⟨parent, session⟩] else registered other events := by
    by_cases same : other = child
    · simp [registered, same]
    · simp [registered, same, Ne.symm same]
  refine ⟨distinct, fun other => ?_, fun other parent bound => ?_, fun number => ?_⟩
  · rw [parents]
    split
    case isTrue =>
      exact pairwise_append.mpr ⟨tracks.ordered child, by simp, by simpa using above⟩
    case isFalse => exact tracks.ordered other
  · rw [parents, history, read]
    split
    case isTrue =>
      rw [latest_concat, latest_concat]
      split
      case isTrue => exact .inl rfl
      case isFalse => exact tracks.latest child parent bound
    case isFalse => exact tracks.latest other parent bound
  · rw [read, tracks.finished number]
    simp [ReadSession.finished]

theorem latest_remaining (parent bound dropped session : Nat)
    (ordered : infos.Pairwise fun first second => first.partitionSessionId ≤ second.partitionSessionId) :
    let remaining := infos.filter fun info =>
      !(info.partitionId == dropped && info.partitionSessionId < session)
    latest remaining parent bound = latest infos parent bound ∨
      latest remaining parent bound = none ∧ parent = dropped ∧
        ∀ number ∈ latest infos parent bound, number < session := by
  induction infos using List.reverseRecOn with
  | nil => exact .inl rfl
  | append_singleton rest info ih =>
    obtain ⟨remaining, -, before⟩ := pairwise_append.mp ordered
    have ih := ih remaining
    simp only [filter_append] at ih ⊢
    rw [latest_concat]
    by_cases isDropped : info.partitionId = dropped ∧ info.partitionSessionId < session
    · simp only [filter_cons, isDropped, beq_self_eq_true, decide_true, Bool.and_self,
        Bool.not_true, Bool.false_eq_true, if_false, filter_nil, append_nil]
      split
      case isFalse => exact ih
      case isTrue isParent =>
        refine .inr ⟨?_, isParent.1.symm, by simp [isDropped.2]⟩
        rw [Option.eq_none_iff_forall_ne_some]
        intro number found
        obtain ⟨other, member, isOther, -, -⟩ := mem_of_latest found
        simp only [mem_filter] at member
        have := before other member.1 info (by simp)
        grind
    · have kept : ([info].filter fun info =>
          !(info.partitionId == dropped && info.partitionSessionId < session)) = [info] := by
        grind
      rw [kept, latest_concat]
      split
      case isTrue => exact .inl rfl
      case isFalse => exact ih

theorem Tracks.unregister (tracks : Tracks events state)
    (distinct : after.hierarchyData.Distinct) (read : after.readingFinishedData = state.readingFinishedData)
    (parents : ∀ child, after.parents child = (state.parents child).filter fun info =>
      !(info.partitionId == parent && info.partitionSessionId < session))
    (dropped : ∀ child, ∀ info ∈ state.parents child, info.partitionId = parent →
      info.partitionSessionId < session → info.partitionSessionId ∈ state.readingFinishedData) :
    Tracks (events ++ [.unregisterPartition parent session]) after := by
  have history (child : Nat) : registered child (events ++ [.unregisterPartition parent session]) =
      registered child events := by
    simp [registered]
  refine ⟨distinct, fun child => ?_, fun child other bound => ?_, fun number => ?_⟩
  · rw [parents]
    exact (tracks.ordered child).filter _
  · rw [parents, history, read]
    rcases latest_remaining other bound parent session (tracks.ordered child) with same | ⟨none, rfl, below⟩
    · rw [same]
      exact tracks.latest child other bound
    · refine .inr ⟨none, fun number found => ?_⟩
      rcases tracks.latest child other bound with same | ⟨-, all⟩
      · rw [← same] at found
        obtain ⟨info, member, isParent, rfl, -⟩ := mem_of_latest found
        exact dropped child info member isParent (below _ found)
      · exact all number found
  · rw [read, tracks.finished number]
    simp [ReadSession.finished]

theorem Tracks.step {event : HierarchyEvent} (tracks : Tracks events state)
    (ordered : Ordered state event) :
    (reactHierarchy env event).wp (.keeping (Tracks (events ++ [event]))) state := by
  cases event with
  | registerParentPartition child parent session =>
    refine tracks.register ordered (tracks.distinct.insert _ _) rfl fun other => ?_
    simp only [State.parents, Assoc.find_insert]
    split <;> rfl
  | finishReading number =>
    have history (child : Nat) : registered child (events ++ [.finishReading number]) =
        registered child events := by
      simp [registered]
    refine ⟨tracks.distinct, tracks.ordered, fun child parent bound => ?_, fun other => ?_⟩
    · rw [history]
      exact (tracks.latest child parent bound).imp id (And.imp_right fun all other found =>
        mem_cons_of_mem _ (all other found))
    · have := tracks.finished other
      simp_all [ReadSession.finished, or_comm]
  | unregisterPartition parent session =>
    have mapped : Assoc.Distinct (state.hierarchyData.map fun entry => (entry.1,
        entry.2.filter fun info => !(info.partitionId == parent && info.partitionSessionId < session))) :=
      pairwise_map.mpr tracks.distinct
    refine tracks.unregister (List.Pairwise.filter _ mapped) rfl (fun child => ?_) ?_
    · simp only [State.parents]
      rw [mapped.find_filter fun infos => !infos.isEmpty, Assoc.find_map]
      cases state.hierarchyData.find child with
      | none => rfl
      | some infos =>
        simp only [Option.map_some, Option.filter_some, Option.getD_some]
        split
        case isTrue => rfl
        case isFalse empty => exact (List.isEmpty_iff.mp (by simpa using empty)).symm
    · intro child info member isParent below
      cases found : state.hierarchyData.find child with
      | none => simp [State.parents, found] at member
      | some infos =>
        simp only [State.parents, found, Option.getD_some] at member
        exact ordered (child, infos) (Assoc.mem_of_find found) info member isParent below

theorem tracks_of_run (tracks : Tracks history state)
    (ordered : Permitted (reactHierarchy env) Ordered state events)
    (ended : run (reactHierarchy env) state events = .ok after) : Tracks (history ++ events) after := by
  induction events generalizing history state with
  | nil =>
    cases ended
    rw [append_nil]
    exact tracks
  | cons event rest ih =>
    cases taken : (reactHierarchy env event).step state with
    | error assertion => simp [run, taken] at ended
    | ok middle =>
      rw [run, taken] at ended
      have next := Code.wp_step (tracks.step ordered.1) taken
      rw [append_cons]
      exact ih next (ordered.2 middle taken) ended

/-- In every run in which the parent sessions of a child are registered in the order of their
ids and only those read to the end are dropped, the check says whether the latest session of
each parent before the child's session has been read. -/
theorem parents_read_before_child
    (ordered : Permitted (reactHierarchy env) Ordered {} events)
    (ended : run (reactHierarchy env) {} events = .ok state) (partitionId session : Nat) :
    state.allParentSessionsHasBeenRead partitionId session = true ↔
      ∀ parent number, latest (registered partitionId events) parent session = some number →
        number ∈ finished events := by
  have tracks : Tracks events state := tracks_of_run tracks_start ordered ended
  rw [allParentSessionsHasBeenRead_iff (tracks.ordered partitionId)]
  constructor
  · intro read parent number found
    rw [← tracks.finished]
    rcases tracks.latest partitionId parent session with same | ⟨-, all⟩
    · exact read parent number (same.trans found)
    · exact all number found
  · intro read parent number found
    rw [tracks.finished]
    rcases tracks.latest partitionId parent session with same | ⟨none, -⟩
    · exact read parent number (same.symm.trans found)
    · rw [none] at found
      contradiction

def mergedRun : List HierarchyEvent :=
  [.registerParentPartition 3 1 5, .registerParentPartition 3 2 7, .finishReading 5,
    .unregisterPartition 1 6, .finishReading 7]

theorem merged_parents_read :
    ∃ state, run (reactHierarchy {}) {} mergedRun = .ok state ∧
      (state.allParentSessionsHasBeenRead 3 8 = true ↔ ∀ parent number,
        latest (registered 3 mergedRun) parent 8 = some number → number ∈ finished mergedRun) := by
  have ordered : Permitted (reactHierarchy {}) Ordered {} mergedRun := by decide +kernel
  exact ⟨_, rfl, parents_read_before_child ordered rfl 3 8⟩

/-- The session of a parent that ended first is later than the child's, so the other parent is
not looked at. -/
theorem later_parent_hides_unread_parent :
    ∃ events state, run (reactHierarchy {}) {} events = .ok state ∧
      state.allParentSessionsHasBeenRead 3 6 = true ∧
      latest (registered 3 events) 1 6 = some 5 ∧ 5 ∉ finished events :=
  ⟨[.registerParentPartition 3 2 7, .registerParentPartition 3 1 5], _, rfl, rfl, rfl, by decide⟩

end YdbSdk.Topic.ReadSession
