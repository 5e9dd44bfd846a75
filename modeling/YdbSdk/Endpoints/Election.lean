import YdbSdk.Endpoints.Links

namespace YdbSdk.Endpoints

open Control Data List

/-! # Electing an endpoint

The records stay sorted by priority, and the cached length of the best prefix is that of the
current list. -/

variable {state : State} {record : EndpointRecord}

structure Ranked (state : State) : Prop where
  sorted : state.records.Pairwise fun first second => first.priority ≤ second.priority
  cached : state.bestK = getBestK state.records

/-- Priorities have 32 bits, so that none is above that of a pessimized record. -/
def Bounded (state : State) : Prop := ∀ record ∈ state.records, record.priority ≤ pessimizedPriority

def Fits : Event → Prop
  | .setNewState records _ => ∀ record ∈ records, record.priority ≤ pessimizedPriority
  | _ => True

instance : (event : Event) → Decidable (Fits event) := by
  rintro ⟨⟩ <;> dsimp only [Fits] <;> infer_instance

theorem best_priority {index : Nat}
    (best : (index : Int) < getBestK (first :: rest) + 1) :
    ∃ record, (first :: rest)[index]? = some record ∧ record ∈ first :: rest ∧
      record.priority = first.priority := by
  cases index with
  | zero => exact ⟨first, rfl, mem_cons_self, rfl⟩
  | succ index =>
    let equal := rest.takeWhile fun record => record.priority = first.priority
    have within : index < equal.length := by
      change ((index + 1 : Nat) : Int) < (equal.length : Int) + 1 at best
      omega
    have found : rest[index]? = some equal[index] := by
      obtain ⟨others, same⟩ : equal <+: rest := takeWhile_prefix _
      rw [← same, List.getElem?_append_left within, List.getElem?_eq_getElem within]
    have member : equal[index] ∈ equal := getElem_mem within
    exact ⟨equal[index], found, mem_cons_of_mem _ ((takeWhile_sublist _).subset member),
      by simpa using all_eq_true.mp all_takeWhile _ member⟩

theorem Ranked.elects (ranked : Ranked state) {index : Nat} (best : (index : Int) < state.bestK + 1) :
    ∃ record, state.records[index]? = some record ∧ record ∈ state.records ∧
      ∀ other ∈ state.records, record.priority ≤ other.priority := by
  obtain ⟨sorted, cached⟩ := ranked
  cases records : state.records with
  | nil =>
    rw [cached, records, getBestK] at best
    omega
  | cons first rest =>
    rw [cached, records] at best
    rw [records] at sorted
    obtain ⟨record, found, member, same⟩ := best_priority best
    refine ⟨record, found, member, fun other inside => ?_⟩
    rw [same]
    rcases mem_cons.mp inside with rfl | later
    · exact Int.le_refl _
    · exact (pairwise_cons.mp sorted).1 other later

/-! ## Runs -/

theorem pessimizeEndpointUnlocked_unchanged
    (none : (pessimizeEndpointUnlocked endpoint state).1 = false) :
    (pessimizeEndpointUnlocked endpoint state).2 = state := by
  unfold pessimizeEndpointUnlocked at none ⊢
  cases found : state.records.find? (isCandidate endpoint) with
  | none => rfl
  | some record =>
    rw [found] at none
    contradiction

theorem pessimizeFrom_unchanged (nodeId : Nat) (positions : List Nat) (changed : Bool)
    (none : (pessimizeFrom nodeId positions changed state).1 = false) :
    changed = false ∧ (pessimizeFrom nodeId positions changed state).2 = state := by
  induction positions generalizing changed state with
  | nil => exact ⟨none, rfl⟩
  | cons position rest ih =>
    rw [pessimizeFrom] at none ⊢
    cases found : state.records[position]? with
    | none =>
      rw [found] at none
      exact ih changed none
    | some record =>
      rw [found] at none
      simp only at none ⊢
      by_cases here : record.nodeId = nodeId ∧ record.priority ≠ pessimizedPriority
      · rw [if_pos here] at none ⊢
        obtain ⟨not, same⟩ := ih _ none
        rw [Bool.or_eq_false_iff] at not
        exact ⟨not.1, same.trans (pessimizeEndpointUnlocked_unchanged not.2)⟩
      · rw [if_neg here] at none ⊢
        exact ih changed none

theorem Ranked.resort {sorted : List EndpointRecord}
    (ranked : Ranked before) (unchanged : changed = false → state = before)
    (order : SortedAs state.records sorted) : Ranked (resort changed sorted state) := by
  cases changed with
  | true => exact ⟨order.2, rfl⟩
  | false => exact unchanged rfl ▸ ranked

def State.ranks (state : State) : List EndpointRecord × Int := (state.records, state.bestK)

theorem State.ranks_of_outside {before after : State} (same : after.outside = before.outside) :
    after.ranks = before.ranks :=
  congrArg (fun part => (part.1.1, part.2.1)) same

theorem react_ranked (known : Known state) (ranked : Ranked state)
    (possible : Possible state event) : (react event).wp (.keeping Ranked) state := by
  have kept : ∀ after, after.ranks = state.ranks → Ranked after := by
    intro after same
    obtain ⟨records, bestK⟩ := Prod.mk.inj same
    exact ⟨records ▸ ranked.sorted, by rw [records, bestK]; exact ranked.cached⟩
  cases event with
  | setNewState records sorted =>
    simp only [react, Code.wp_rules, setNewState_wp known possible]
    exact ⟨by rw [updated_records]; exact possible.2, by rw [updated_records]; rfl⟩
  | notifyEndpointRemoved registry => exact kept _ rfl
  | pessimizeEndpoint endpoint sorted =>
    exact .resort ranked pessimizeEndpointUnlocked_unchanged possible
  | pessimizeNode nodeId sorted =>
    change Ranked (if nodeId = 0 then state else _)
    split
    · exact ranked
    · exact .resort ranked (fun none => (pessimizeFrom_unchanged nodeId _ _ none).2) possible
  | linkObjToEndpoint nodeId obj tag =>
    rw [react, Code.wp_bind]
    exact Code.wp_mono (linkObjToEndpoint_outside nodeId obj tag state)
      (fun _ after same => kept after (State.ranks_of_outside same))
      fun _ after same => kept after (State.ranks_of_outside same)
  | unlink obj =>
    exact Code.wp_mono (unlink_outside obj state)
      (fun _ after same => kept after (State.ranks_of_outside same))
      fun _ after same => kept after (State.ranks_of_outside same)

theorem resilient_bounded : Resilient fun state => Known state ∧ Bounded state where
  changes := by
    intro state endpoint candidate holds found
    refine ⟨holds.1.pessimized found, fun record member => ?_⟩
    rcases (mem_pessimizeFirst holds.1.unique found record).mp member with ⟨old, -⟩ | rfl
    · exact holds.2 record old
    · exact Int.le_refl _
  sorts holds order := ⟨holds.1.perm order _, fun record member => holds.2 record (order.mem_iff.mp member)⟩


structure Elects (state : State) : Prop where
  known : Known state
  ranked : Ranked state
  bounded : Bounded state

theorem react_elects (elects : Elects state)
    (allowed : Possible state event ∧ Fits event) : (react event).wp (.keeping Elects) state := by
  obtain ⟨known, ranked, bounded⟩ := elects
  have both := Code.wp_and (react_ranked known ranked allowed.1) (react_keeping
    ?_ resilient_bounded known bounded allowed.1 ?_)
  · exact Code.wp_mono both (fun _ _ done => ⟨done.2.1, done.1, done.2.2⟩)
      fun _ _ done => ⟨done.2.1, done.1, done.2.2⟩
  · intro before after same bounded
    have records : after.records = before.records := congrArg (fun part => part.1.1) same
    rw [Bounded, records]
    exact bounded
  · intro records sorted update record member
    subst update
    rw [updated_records, allowed.1.1.mem_iff] at member
    exact allowed.2 record (mem_uniqueFrom member).1

/-- Without a usable preference the elected record is one of minimal priority, and so not pessimized
if any is not; it is missing only if there are no records. -/
theorem getEndpoint_minimal {state : State}
    (reached : Reachable react (fun state event => Possible state event ∧ Fits event) .initial state)
    {preferredEndpoint : List Char} {preferredNodeId : Nat}
    (noNode : preferredNodeId = 0 ∨ state.knownEndpointsByNodeId.find preferredNodeId = none)
    (noAddress : preferredEndpoint = [] ∨ state.knownEndpoints.find preferredEndpoint = none) :
    (state.bestK = -1 ↔ state.records = []) ∧
      (∀ idx : Nat, (idx : Int) < state.bestK + 1 →
        getEndpoint state preferredEndpoint preferredNodeId false idx ∈ state.records ∧
        ∀ other ∈ state.records,
          (getEndpoint state preferredEndpoint preferredNodeId false idx).priority ≤ other.priority ∧
          (other.priority ≠ pessimizedPriority →
            (getEndpoint state preferredEndpoint preferredNodeId false idx).priority ≠
              pessimizedPriority)) ∧
      ∀ event, Possible state event → (react event).step state ≠ .error .sizesAgree := by
  have elects : Elects state := reached.invariant ⟨.initial, ⟨.nil, rfl⟩, nofun⟩ fun _ _ => react_elects
  refine ⟨?_, fun idx best => ?_, fun event => ?_⟩
  · rw [elects.ranked.cached]
    cases state.records with
    | nil => simp [getBestK]
    | cons first rest =>
      simp only [getBestK, reduceCtorEq]
  · obtain ⟨record, found, member, least⟩ := elects.ranked.elects best
    have elected : getEndpoint state preferredEndpoint preferredNodeId false idx = record := by
      have some : state.bestK ≠ -1 := by omega
      have byNode : (if preferredNodeId ≠ 0 then
          state.knownEndpointsByNodeId.find preferredNodeId else none) = none := by
        rcases noNode with zero | absent
        · simp [zero]
        · simp [absent]
      have byAddress : (if preferredEndpoint ≠ [] then
          state.knownEndpoints.find preferredEndpoint else none) = none := by
        rcases noAddress with empty | absent
        · simp [empty]
        · simp [absent]
      simp only [getEndpoint, byNode, byAddress]
      simp [some, found]
    rw [elected]
    refine ⟨member, fun other inside => ⟨least other inside, fun better worst => ?_⟩⟩
    have above := elects.bounded other inside
    have below := least other inside
    omega
  · exact elector_never_stops (reached.mono fun _ _ both => both.1)

theorem getEndpoint_minimal_after_pessimizing :
    ∃ state, state.records.length = 2 ∧
      (getEndpoint state [] 0 false 0).priority ≠ pessimizedPriority := by
  obtain ⟨state, reached, two, bestK, other, member, better⟩ : ∃ state,
      Reachable react (fun state event => Possible state event ∧ Fits event) .initial state ∧
      state.records.length = 2 ∧ state.bestK = 0 ∧
      ∃ record ∈ state.records, record.priority ≠ pessimizedPriority :=
    exists_reachable
      [.setNewState [⟨['a'], 0, [], 1, []⟩, ⟨['b'], 5, [], 2, []⟩]
        [⟨['a'], 0, [], 1, []⟩, ⟨['b'], 5, [], 2, []⟩],
       .pessimizeEndpoint ['a']
        [⟨['b'], 5, [], 2, []⟩, ⟨['a'], pessimizedPriority, [], 1, []⟩]] (by decide +kernel)
  have minimal := (getEndpoint_minimal reached (.inl rfl) (.inl rfl)).2.1 0 (by omega)
  exact ⟨state, two, (minimal.2 other member).2 better⟩

end YdbSdk.Endpoints
