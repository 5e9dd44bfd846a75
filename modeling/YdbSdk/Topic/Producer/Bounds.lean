import YdbSdk.Control.Run
import YdbSdk.Data.Assoc

namespace YdbSdk.Topic.Producer.Bounds

open YdbSdk.Control YdbSdk.Data List

/-! # Choosing a partition by bounds

`PartitionsIndex` maps the lower bound of each leaf to its partition.  A split replaces the entry
of a partition by those of its children.  Bounds and hashed keys are strings; only their order
matters, with the empty string below all others. -/

variable {κ : Type} [LinearOrder κ]

structure PartitionInfo (κ : Type) where
  fromBound : κ
  toBound : Option κ
  children : List Nat := []

def PartitionInfo.inRange (info : PartitionInfo κ) (key : κ) : Bool :=
  if key < info.fromBound then false
  else if info.toBound.any (· ≤ key) then false
  else true

/-- The ranges are nonempty and apart, and together they are the whole. -/
structure Tiles (ranges : Nat → PartitionInfo κ → Prop) (whole : κ → Prop) : Prop where
  nonempty : ∀ {partition info}, ranges partition info → info.inRange info.fromBound = true
  apart : ∀ {partition other info otherInfo key}, ranges partition info → ranges other otherInfo →
    info.inRange key = true → otherInfo.inRange key = true → partition = other
  cover : ∀ key, whole key ↔ ∃ partition info, ranges partition info ∧ info.inRange key = true

theorem Tiles.replace {ranges children : Nat → PartitionInfo κ → Prop} (tiles : Tiles ranges whole)
    (there : ranges splitted info) (only : ∀ other, ranges splitted other → other = info)
    (inside : Tiles children fun key => info.inRange key = true) :
    Tiles (fun partition info => partition ≠ splitted ∧ ranges partition info ∨
      children partition info) whole where
  nonempty := fun range => range.elim (fun old => tiles.nonempty old.2) inside.nonempty
  apart := by
    intro partition other range otherRange key here there' holds otherHolds
    have parent {child : Nat} {childRange : PartitionInfo κ} (new : children child childRange)
        (holds : childRange.inRange key = true) : info.inRange key = true :=
      (inside.cover key).mpr ⟨child, childRange, new, holds⟩
    rcases here with ⟨differs, old⟩ | new
    · rcases there' with ⟨_, otherOld⟩ | otherNew
      · exact tiles.apart old otherOld holds otherHolds
      · exact absurd (tiles.apart old there holds (parent otherNew otherHolds)) differs
    · rcases there' with ⟨differs, otherOld⟩ | otherNew
      · exact absurd (tiles.apart otherOld there otherHolds (parent new holds)) differs
      · exact inside.apart new otherNew holds otherHolds
  cover := by
    intro key
    rw [tiles.cover key]
    constructor
    · rintro ⟨partition, range, old, holds⟩
      by_cases same : partition = splitted
      · subst same
        obtain rfl := only range old
        obtain ⟨child, childRange, new, childHolds⟩ := (inside.cover key).mp holds
        exact ⟨child, childRange, .inr new, childHolds⟩
      · exact ⟨partition, range, .inl ⟨same, old⟩, holds⟩
    · rintro ⟨partition, range, ⟨_, old⟩ | new, holds⟩
      · exact ⟨partition, range, old, holds⟩
      · exact ⟨splitted, info, there, (inside.cover key).mpr ⟨partition, range, new, holds⟩⟩

variable [OrderBot κ]

structure Described (κ : Type) where
  partitionId : Nat
  fromBound : Option κ := none
  toBound : Option κ := none
  childPartitionIds : List Nat := []

def Described.info (partition : Described κ) : PartitionInfo κ where
  fromBound := partition.fromBound.getD ⊥
  toBound := partition.toBound

def Described.entry (partition : Described κ) : Nat × PartitionInfo κ :=
  (partition.partitionId, partition.info)

def Described.bound (partition : Described κ) : κ × Nat :=
  (partition.info.fromBound, partition.partitionId)

def Described.isLeaf (partition : Described κ) : Bool := partition.childPartitionIds = []

structure State (κ : Type) where
  partitions : Assoc Nat (PartitionInfo κ)
  partitionsIndex : Assoc κ Nat

inductive Assertion where
  | partitionFound

abbrev Worker (κ : Type) := Code Empty Assertion (State κ)

/-- The constructor, on the partitions in the order of their ids; `none` is its exception. -/
def construct (partitions : List (Described κ)) : Option (State κ) :=
  if partitions = [] ∨ partitions.tail.any (fun partition =>
      partition.fromBound.isNone && partition.toBound.isNone) then none
  else some {
    partitions := .insertAll (partitions.map fun partition =>
      (partition.partitionId, { partition.info with children := partition.childPartitionIds })) []
    partitionsIndex := .insertAll ((partitions.filter Described.isLeaf).map Described.bound) [] }

/-- The partition and the hashed key; `none` is the abort. -/
def choosePartition (partitioningKeyHasher : γ → κ) (partitionsIndex : Assoc κ Nat) (key : γ) :
    Option (Nat × κ) :=
  let hashedKey := partitioningKeyHasher key
  match partitionsIndex.find hashedKey with
  | some partition => some (partition, hashedKey)
  | none =>
    -- the entry before `lower_bound`
    ((partitionsIndex.filter fun entry => entry.1 < hashedKey).argmax Prod.fst).map
      fun entry => (entry.2, hashedKey)

def newPartitionsIds (partitionId : Nat) (partitions : List (Described κ)) : List Nat :=
  match partitions.find? fun partition => partition.partitionId == partitionId with
  | none => []
  | some partition => partition.childPartitionIds

def childPartitionInfos (partitionId : Nat) (partitions : List (Described κ)) :
    Option (List (Described κ)) :=
  (newPartitionsIds partitionId partitions).mapM fun newPartitionId =>
    partitions.find? fun partition => partition.partitionId == newPartitionId

def replace (partitionId : Nat) (splitted : PartitionInfo κ) (children : List (Described κ))
    (state : State κ) : State κ where
  partitionsIndex := .insertAll (children.map Described.bound)
    (state.partitionsIndex.erase splitted.fromBound)
  partitions := (Assoc.insertAll (children.map Described.entry) state.partitions).insert partitionId
    { splitted with children := children.map Described.partitionId }

/-- Without children in the answer the worker asks again or gives up; a child that is not
described makes it fail. -/
def handleDescribeResult (partitionId : Nat) (partitions : List (Described κ)) : Worker κ Unit :=
  if newPartitionsIds partitionId partitions = [] then pure ()
  else match childPartitionInfos partitionId partitions with
    | none => pure ()
    | some children => do
        let state ← .get
        match state.partitions.find partitionId with
        | none => .stop .partitionFound
        | some splitted => .update (replace partitionId splitted children)

def react (answer : Nat × List (Described κ)) : Worker κ Unit :=
  handleDescribeResult answer.1 answer.2

/-! ## The index -/

def Leaf (state : State κ) (partition : Nat) (info : PartitionInfo κ) : Prop :=
  state.partitions.find partition = some info ∧ info.children = []

structure Indexed (state : State κ) : Prop where
  tiles : Tiles (Leaf state) fun _ => True
  distinct : state.partitionsIndex.Distinct
  leaves : ∀ bound partition, state.partitionsIndex.find bound = some partition ↔
    ∃ info, Leaf state partition info ∧ info.fromBound = bound

omit [OrderBot κ] in
theorem PartitionInfo.inRange_iff {info : PartitionInfo κ} :
    info.inRange key = true ↔
      info.fromBound ≤ key ∧ ∀ bound, info.toBound = some bound → key < bound := by
  unfold PartitionInfo.inRange
  cases info.toBound <;> simp

omit [OrderBot κ] in
theorem Indexed.choosePartition (indexed : Indexed state)
    (partitioningKeyHasher : γ → κ) (key : γ) :
    ∃ partition info, choosePartition partitioningKeyHasher state.partitionsIndex key =
        some (partition, partitioningKeyHasher key) ∧
      Leaf state partition info ∧ info.inRange (partitioningKeyHasher key) = true := by
  unfold Bounds.choosePartition
  generalize partitioningKeyHasher key = hashedKey
  obtain ⟨partition, info, leaf, holds⟩ := (indexed.tiles.cover hashedKey).mp trivial
  cases found : state.partitionsIndex.find hashedKey with
  | some other =>
    obtain ⟨otherInfo, otherLeaf, rfl⟩ := (indexed.leaves _ _).mp found
    exact ⟨other, otherInfo, by simp [found], otherLeaf, indexed.tiles.nonempty otherLeaf⟩
  | none =>
    have differs : info.fromBound ≠ hashedKey := by
      rintro rfl
      rw [(indexed.leaves _ _).mpr ⟨info, leaf, rfl⟩] at found
      contradiction
    obtain ⟨low, high⟩ := PartitionInfo.inRange_iff.mp holds
    have entry := Assoc.mem_of_find ((indexed.leaves _ _).mpr ⟨info, leaf, rfl⟩)
    have below : (info.fromBound, partition) ∈
        state.partitionsIndex.filter fun entry => entry.1 < hashedKey :=
      mem_filter.mpr ⟨entry, by simpa using lt_of_le_of_ne low differs⟩
    cases greatest : (state.partitionsIndex.filter fun entry => entry.1 < hashedKey).argmax
        Prod.fst with
    | none =>
      rw [argmax_eq_none.mp greatest] at below
      contradiction
    | some chosen =>
      obtain ⟨inside, less⟩ := mem_filter.mp (argmax_mem greatest)
      obtain ⟨chosenInfo, chosenLeaf, bound⟩ :=
        (indexed.leaves _ _).mp (indexed.distinct.find_eq_some.mpr inside)
      -- The bound of the chosen leaf lies in the range of the leaf that has the key.
      have within : info.inRange chosen.1 = true := by
        refine PartitionInfo.inRange_iff.mpr ⟨le_of_mem_argmax below greatest, ?_⟩
        exact fun top is => lt_trans (of_decide_eq_true less) (high top is)
      have itself := indexed.tiles.nonempty chosenLeaf
      rw [bound] at itself
      obtain rfl := indexed.tiles.apart leaf chosenLeaf within itself
      exact ⟨chosen.2, info, by simp [found, greatest], leaf, holds⟩

section

variable {ranges : List (Described κ)} {whole : κ → Prop}

theorem bounds_distinct (distinct : Assoc.Distinct (ranges.map Described.entry))
    (tiles : Tiles (fun partition info => (partition, info) ∈ ranges.map Described.entry) whole) :
    Assoc.Distinct (ranges.map Described.bound) := by
  refine pairwise_map.mpr ((pairwise_map.mp distinct).imp_of_mem ?_)
  intro first second here there differ same
  have entry {range : Described κ} (member : range ∈ ranges) :
      (range.partitionId, range.info) ∈ ranges.map Described.entry := mem_map_of_mem member
  have holds := tiles.nonempty (entry here)
  have same : first.info.fromBound = second.info.fromBound := same
  exact differ (tiles.apart (entry here) (entry there) holds (same ▸ tiles.nonempty (entry there)))

theorem mem_bounds {partition : Nat} :
    (bound, partition) ∈ ranges.map Described.bound ↔
      ∃ info, (partition, info) ∈ ranges.map Described.entry ∧ info.fromBound = bound := by
  simp only [mem_map, Described.bound, Described.entry, Prod.mk.injEq]
  constructor
  · rintro ⟨range, member, rfl, rfl⟩
    exact ⟨range.info, ⟨range, member, rfl, rfl⟩, rfl⟩
  · rintro ⟨info, ⟨range, member, rfl, rfl⟩, rfl⟩
    exact ⟨range, member, rfl, rfl⟩

end

/-- The answer reports a split of a leaf: the children are new, and their ranges tile its own. -/
def ReportsSplit (state : State κ) (answer : Nat × List (Described κ)) : Prop :=
  ∀ children, childPartitionInfos answer.1 answer.2 = some children → children ≠ [] →
    ∃ info, Leaf state answer.1 info ∧ Assoc.Distinct (children.map Described.entry) ∧
      (∀ child ∈ children, state.partitions.find child.partitionId = none) ∧
      Tiles (fun partition info => (partition, info) ∈ children.map Described.entry)
        fun key => info.inRange key = true

section

variable {state : State κ} {splitted : Nat} {info : PartitionInfo κ} {children : List (Described κ)}

theorem leaf_replace (leaf : Leaf state splitted info) (nonempty : children ≠ [])
    (distinct : Assoc.Distinct (children.map Described.entry))
    (fresh : ∀ child ∈ children, state.partitions.find child.partitionId = none) (partition : Nat)
    (other : PartitionInfo κ) :
    Leaf (replace splitted info children state) partition other ↔
      partition ≠ splitted ∧ Leaf state partition other ∨
        (partition, other) ∈ children.map Described.entry := by
  have new {partition : Nat} {other : PartitionInfo κ}
      (member : (partition, other) ∈ children.map Described.entry) :
      state.partitions.find partition = none ∧ other.children = [] := by
    obtain ⟨child, inside, same⟩ := mem_map.mp member
    cases same
    exact ⟨fresh child inside, rfl⟩
  rw [Leaf, Leaf, replace, Assoc.find_insert, Assoc.find_insertAll distinct]
  by_cases same : partition = splitted
  · subst same
    rw [if_pos rfl]
    constructor
    · rintro ⟨itself, childless⟩
      cases itself
      exact absurd (map_eq_nil_iff.mp childless) nonempty
    · rintro (⟨differs, _⟩ | member)
      · exact absurd rfl differs
      · exact absurd ((new member).1.symm.trans leaf.1) nofun
  · rw [if_neg same]
    cases found : Assoc.find partition (children.map Described.entry) with
    | none =>
      have absent : (partition, other) ∉ children.map Described.entry :=
        fun member => Assoc.find_eq_none.mp found _ member rfl
      simp [same, absent]
    | some child =>
      have member := Assoc.mem_of_find found
      rw [← distinct.find_eq_some, found, (new member).1]
      simp only [Option.some_or, Option.some.injEq, reduceCtorEq, false_and, and_false, false_or]
      constructor
      · exact And.left
      · rintro rfl
        exact ⟨rfl, (new member).2⟩

theorem Indexed.replace (indexed : Indexed state) (leaf : Leaf state splitted info)
    (nonempty : children ≠ []) (distinct : Assoc.Distinct (children.map Described.entry))
    (fresh : ∀ child ∈ children, state.partitions.find child.partitionId = none)
    (inside : Tiles (fun partition info => (partition, info) ∈ children.map Described.entry)
      fun key => info.inRange key = true) :
    Indexed (replace splitted info children state) := by
  have only (other : PartitionInfo κ) (same : Leaf state splitted other) : other = info :=
    Option.some.inj (same.1.symm.trans leaf.1)
  have leaves := leaf_replace leaf nonempty distinct fresh
  have same : Leaf (Bounds.replace splitted info children state) = _ :=
    funext fun partition => funext fun other => propext (leaves partition other)
  have tiles := indexed.tiles.replace leaf only inside
  refine ⟨same ▸ tiles, (indexed.distinct.erase _).insertAll _, fun bound partition => ?_⟩
  rw [same, Bounds.replace, Assoc.find_insertAll (bounds_distinct distinct inside), Assoc.find_erase]
  cases found : Assoc.find bound (children.map Described.bound) with
  | some child =>
    obtain ⟨childInfo, member, rfl⟩ := mem_bounds.mp (Assoc.mem_of_find found)
    have holds := inside.nonempty member
    simp only [Option.some_or, Option.some.injEq]
    constructor
    · rintro rfl
      exact ⟨childInfo, .inr member, rfl⟩
    · rintro ⟨other, range, bound⟩
      have there := tiles.nonempty range
      rw [bound] at there
      exact tiles.apart (.inr member) range holds there
  | none =>
    have absent {other : PartitionInfo κ} (new : (partition, other) ∈ children.map Described.entry)
        (same : other.fromBound = bound) : False :=
      Assoc.find_eq_none.mp found _ (mem_bounds.mpr ⟨other, new, same⟩) rfl
    rw [Option.none_or]
    constructor
    · intro kept
      split at kept
      case isTrue => contradiction
      case isFalse differs =>
          obtain ⟨other, old, rfl⟩ := (indexed.leaves _ _).mp kept
          refine ⟨other, .inl ⟨?_, old⟩, rfl⟩
          rintro rfl
          rw [only other old] at differs
          exact differs rfl
    · rintro ⟨other, ⟨differs, old⟩ | new, rfl⟩
      · have here := indexed.tiles.nonempty old
        rw [if_neg, indexed.leaves]
        · exact ⟨other, old, rfl⟩
        · intro bound
          have there := indexed.tiles.nonempty leaf
          rw [← bound] at there
          exact differs (indexed.tiles.apart old leaf here there)
      · exact (absent new rfl).elim

theorem handleDescribeResult_indexed {answer : Nat × List (Described κ)} (indexed : Indexed state)
    (reports : ReportsSplit state answer) :
    (react answer).wp (.keeping Indexed fun _ => False) state := by
  unfold react handleDescribeResult
  split
  case isTrue => exact indexed
  case isFalse some =>
      cases found : childPartitionInfos answer.1 answer.2 with
      | none => exact indexed
      | some children =>
        have nonempty : children ≠ [] := by
          rintro rfl
          cases ids : newPartitionsIds answer.1 answer.2 with
          | nil => exact some ids
          | cons first rest => simp [childPartitionInfos, ids, Option.bind_eq_some_iff] at found
        obtain ⟨info, leaf, distinct, fresh, inside⟩ := reports children found nonempty
        simp only [Code.wp_rules, leaf.1]
        exact indexed.replace leaf nonempty distinct fresh inside

theorem construct_indexed {partitions : List (Described κ)} {start : State κ}
    (distinct : Assoc.Distinct (partitions.map Described.entry))
    (tiles : Tiles (fun partition info => (partition, info) ∈
      (partitions.filter Described.isLeaf).map Described.entry) fun _ => True)
    (constructed : construct partitions = some start) : Indexed start := by
  unfold construct at constructed
  split at constructed
  case isTrue => contradiction
  case isFalse =>
      have constructed := Option.some.inj constructed
      have ids : partitions.Pairwise fun first second => first.partitionId ≠ second.partitionId :=
        (pairwise_map (f := Described.entry)).mp distinct
      have known : Assoc.Distinct (partitions.map fun partition => (partition.partitionId,
          { partition.info with children := partition.childPartitionIds })) :=
        pairwise_map.mpr ids
      have leafDistinct : Assoc.Distinct ((partitions.filter Described.isLeaf).map Described.entry) :=
        .sublist (filter_sublist.map _) distinct
      have same : Leaf start = fun partition info => (partition, info) ∈
          (partitions.filter Described.isLeaf).map Described.entry := by
        funext partition info
        rw [Leaf, ← constructed, Assoc.find_insertAll known, Assoc.find_nil, Option.or_none, known.find_eq_some]
        simp only [mem_map, mem_filter, Described.entry, Described.isLeaf, Prod.mk.injEq,
          decide_eq_true_eq, eq_iff_iff]
        constructor
        · rintro ⟨⟨described, member, rfl, rfl⟩, childless⟩
          have childless : described.childPartitionIds = [] := childless
          exact ⟨described, ⟨member, childless⟩, rfl, by rw [childless]; rfl⟩
        · rintro ⟨described, ⟨member, childless⟩, rfl, rfl⟩
          exact ⟨⟨described, member, rfl, by rw [childless]; rfl⟩, rfl⟩
      refine ⟨same ▸ tiles, constructed ▸ .insertAll .nil _, fun bound partition => ?_⟩
      have bounds := bounds_distinct leafDistinct tiles
      rw [same, ← constructed, Assoc.find_insertAll bounds, Assoc.find_nil, Option.or_none, bounds.find_eq_some,
        mem_bounds]

end

/-- After any splits the leaves are the partitions of the index and tile the key space, and every
key is given to the leaf whose range has the hashed key. -/
theorem bound_index_tiles {partitions : List (Described κ)} {start state : State κ}
    (distinct : Assoc.Distinct (partitions.map Described.entry))
    (tiles : Tiles (fun partition info => (partition, info) ∈
      (partitions.filter Described.isLeaf).map Described.entry) fun _ => True)
    (constructed : construct partitions = some start)
    (reached : Reachable react ReportsSplit start state) :
    Tiles (Leaf state) (fun _ => True) ∧
      (∀ bound partition, state.partitionsIndex.find bound = some partition ↔
        ∃ info, Leaf state partition info ∧ info.fromBound = bound) ∧
      ∀ (γ : Type) (partitioningKeyHasher : γ → κ) key, ∃ partition info,
        choosePartition partitioningKeyHasher state.partitionsIndex key =
            some (partition, partitioningKeyHasher key) ∧
          Leaf state partition info ∧ info.inRange (partitioningKeyHasher key) = true := by
  have indexed : Indexed state := reached.invariant (construct_indexed distinct tiles constructed)
    fun _ _ indexed reports => Code.wp_mono_stops (handleDescribeResult_indexed indexed reports)
      (fun _ _ => id) (fun _ _ => id) nofun
  exact ⟨indexed.tiles, indexed.leaves, fun _ => indexed.choosePartition⟩

/-- Partition 0 has all keys; it is split at 5. -/
theorem bound_index_tiles_after_split :
    ∃ start state : State Nat, construct [{ partitionId := 0 }] = some start ∧
      Reachable react ReportsSplit start state ∧ state.partitionsIndex = [(5, 2), (0, 1)] ∧
      ∃ partition info, choosePartition id state.partitionsIndex 7 = some (partition, 7) ∧
        Leaf state partition info ∧ info.inRange 7 = true := by
  have whole : Tiles (fun partition info => (partition, info) ∈
      ([({ partitionId := 0 } : Described Nat)].filter Described.isLeaf).map Described.entry)
      fun _ => True := by
    refine ⟨?_, ?_, ?_⟩ <;> simp [Described.isLeaf, Described.entry, Described.info,
      PartitionInfo.inRange]
    rintro _ _ _ _ _ rfl - rfl - - - - -
    rfl
  have reports : ReportsSplit (κ := Nat) ⟨[(0, ⟨0, none, []⟩)], [(0, 0)]⟩ (0, [⟨0, none, none, [1, 2]⟩,
      ⟨1, none, some 5, []⟩, ⟨2, some 5, none, []⟩]) := by
    intro children found _
    cases found
    refine ⟨⟨0, none, []⟩, ⟨rfl, rfl⟩, by simp [Assoc.Distinct, Described.entry], by simp [Assoc.find],
      ?_, ?_, ?_⟩
    all_goals simp [Described.entry, Described.info, PartitionInfo.inRange_iff]
    · grind
    · grind
    · intro key
      rcases Nat.lt_or_ge key 5 with below | above
      · exact ⟨1, ⟨0, some 5, []⟩, .inl ⟨rfl, rfl⟩, Nat.zero_le key, fun _ top => Option.some.inj top ▸ below⟩
      · exact ⟨2, ⟨5, none, []⟩, .inr ⟨rfl, rfl⟩, above, by simp⟩
  have reached : Reachable react ReportsSplit _ _ := .step _ .start reports rfl
  exact ⟨_, _, rfl, reached, rfl,
    (bound_index_tiles (by simp [Assoc.Distinct]) whole rfl reached).2.2 Nat id 7⟩

end YdbSdk.Topic.Producer.Bounds
