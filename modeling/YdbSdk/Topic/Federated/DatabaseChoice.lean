import YdbSdk.Topic.Federated.Databases

namespace YdbSdk.Topic.Federated

open List

/-! # The choice by hash

The borders of the available databases, sorted by name, divide the hash values below the
total weight.  Weights are signed and are summed up in 64 bits, so a border can lie below
the one before it.
-/

variable {settings : SelectSettings} {dbInfos others databases : List DbInfo} {db : DbInfo}

def availableOf (dbInfos : List DbInfo) : List DbInfo :=
  dbInfos.filter fun db => db.status = .available

def totalWeight (dbInfos : List DbInfo) : Nat :=
  ((availableOf dbInfos).map DbInfo.weight).foldl addWeight 0

def sortedByName (dbInfos : List DbInfo) : List DbInfo :=
  (availableOf dbInfos).mergeSort fun left right => decide (left.name ≤ right.name)

theorem foldl_addWeight (weights : List Int) (sum : Nat) :
    ((weights.foldl addWeight sum : Nat) : Int) =
      if weights = [] then (sum : Int) else (sum + weights.sum) % 2 ^ 64 := by
  induction weights generalizing sum with
  | nil => rfl
  | cons weight rest ih =>
    have positive : (0 : Int) ≤ (sum + weight) % 2 ^ 64 := Int.emod_nonneg _ (by decide)
    rw [foldl_cons, ih, if_neg (cons_ne_nil _ _), sum_cons, addWeight,
      Int.toNat_of_nonneg positive]
    split
    · rename_i none
      rw [none, sum_nil, Int.add_zero]
    · rw [Int.emod_add_emod, Int.add_assoc]

theorem totalWeight_eq (dbInfos : List DbInfo) :
    (totalWeight dbInfos : Int) = ((availableOf dbInfos).map DbInfo.weight).sum % 2 ^ 64 := by
  rw [totalWeight, foldl_addWeight]
  split
  · rename_i none
    rw [none]
    rfl
  · rw [Int.natCast_zero, Int.zero_add]

theorem totalWeight_perm (listed : dbInfos.Perm others) : totalWeight dbInfos = totalWeight others := by
  have same := ((listed.filter fun db => db.status = .available).map DbInfo.weight).sum_eq
  have equal : (totalWeight dbInfos : Int) = totalWeight others := by
    rw [totalWeight_eq, totalWeight_eq, availableOf, availableOf, same]
  exact_mod_cast equal

theorem sortedByName_perm_availableOf (dbInfos : List DbInfo) :
    (sortedByName dbInfos).Perm (availableOf dbInfos) :=
  mergeSort_perm _ _

theorem sortedByName_perm (distinct : (dbInfos.map DbInfo.name).Nodup) (listed : dbInfos.Perm others) :
    sortedByName dbInfos = sortedByName others := by
  have order (databases : List DbInfo) : (sortedByName databases).Pairwise fun left right =>
      decide (left.name ≤ right.name) = true := by
    refine pairwise_mergeSort (fun first second third => ?_) (fun first second => ?_) _
    · simpa using le_trans
    · simpa using le_total first.name second.name
  have same : (sortedByName dbInfos).Perm (sortedByName others) :=
    (sortedByName_perm_availableOf dbInfos).trans
      ((listed.filter _).trans (sortedByName_perm_availableOf others).symm)
  refine same.eq_of_pairwise (fun first second here there below above => ?_) (order _) (order _)
  have member {db : DbInfo} (inside : db ∈ sortedByName dbInfos) : db ∈ dbInfos :=
    mem_of_mem_filter ((sortedByName_perm_availableOf dbInfos).subset inside)
  exact inj_on_of_nodup_map distinct (member here) (member (same.symm.subset there))
    (le_antisymm (of_decide_eq_true below) (of_decide_eq_true above))

theorem pickByWeight_mem
    (picked : pickByWeight hashValue border databases = .database db) : db ∈ databases := by
  induction databases generalizing border with
  | nil => contradiction
  | cons first rest ih =>
    rw [pickByWeight] at picked
    split at picked
    · cases picked
      exact mem_cons_self
    · exact mem_cons_of_mem _ (ih picked)

theorem pickByWeight_reached {hashValue border : Nat} (some : databases ≠ [])
    (below : hashValue < (databases.map DbInfo.weight).foldl addWeight border) :
    pickByWeight hashValue border databases ≠ .unreachable := by
  induction databases generalizing border with
  | nil => contradiction
  | cons first rest ih =>
    rw [pickByWeight]
    split
    · nofun
    · rename_i above
      refine ih ?_ below
      rintro rfl
      exact above below

/-- No available database has a negative weight, and the weights add up in 64 bits. -/
def Weighed (databases : List DbInfo) : Prop :=
  (∀ db ∈ databases, 0 ≤ db.weight) ∧ (databases.map DbInfo.weight).sum < 2 ^ 64

theorem addWeight_of_fits {sum : Nat} {weight : Int} (positive : 0 ≤ weight)
    (fits : sum + weight < 2 ^ 64) : (addWeight sum weight : Int) = sum + weight := by
  rw [addWeight, Int.toNat_of_nonneg (Int.emod_nonneg _ (by decide)), Int.emod_eq_of_lt (by omega) fits]

theorem sum_weights_nonneg (positive : ∀ db ∈ databases, 0 ≤ db.weight) :
    0 ≤ (databases.map DbInfo.weight).sum :=
  sum_nonneg fun weight listed => by
    obtain ⟨db, inside, rfl⟩ := mem_map.mp listed
    exact positive db inside

/-- Between the border so far and the last one, each database has as many hash values as
its weight says. -/
theorem countP_pickByWeight (border : Nat) (positive : ∀ db ∈ databases, 0 ≤ db.weight)
    (fits : border + (databases.map DbInfo.weight).sum < 2 ^ 64) (distinct : databases.Nodup)
    (member : db ∈ databases) :
    (((List.range' border (databases.map DbInfo.weight).sum.toNat).countP fun hashValue =>
      pickByWeight hashValue border databases = .database db : Nat) : Int) = db.weight := by
  induction databases generalizing border with
  | nil => exact absurd member not_mem_nil
  | cons first rest ih =>
    rw [map_cons, sum_cons] at fits
    have firstPositive := positive first mem_cons_self
    have restPositive :=
      sum_weights_nonneg fun other inside => positive other (mem_cons_of_mem first inside)
    have next := addWeight_of_fits firstPositive (show (border : Int) + first.weight < 2 ^ 64 by omega)
    have split : List.range' border ((first :: rest).map DbInfo.weight).sum.toNat =
        .range' border first.weight.toNat ++
          .range' (addWeight border first.weight) (rest.map DbInfo.weight).sum.toNat := by
      rw [map_cons, sum_cons, Int.toNat_add firstPositive restPositive,
        ← List.range'_append_1]
      congr
      omega
    have here : ∀ hashValue ∈ List.range' border first.weight.toNat,
        pickByWeight hashValue border (first :: rest) = .database first := by
      intro hashValue inside
      rw [mem_range'_1] at inside
      rw [pickByWeight, if_pos (by omega)]
    have there : ∀ hashValue ∈ List.range' (addWeight border first.weight)
          (rest.map DbInfo.weight).sum.toNat, pickByWeight hashValue border (first :: rest) =
        pickByWeight hashValue (addWeight border first.weight) rest := by
      intro hashValue inside
      rw [mem_range'_1] at inside
      rw [pickByWeight, if_neg (by omega)]
    obtain ⟨unlisted, restDistinct⟩ := nodup_cons.mp distinct
    rw [split, countP_append]
    rcases mem_cons.mp member with rfl | later
    · have all : (List.range' border db.weight.toNat).countP (fun hashValue =>
          pickByWeight hashValue border (db :: rest) = .database db) = db.weight.toNat := by
        rw [countP_eq_length.mpr fun hashValue inside => by simp [here hashValue inside],
          length_range']
      have none : (List.range' (addWeight border db.weight) (rest.map DbInfo.weight).sum.toNat).countP
          (fun hashValue => pickByWeight hashValue border (db :: rest) = .database db) = 0 := by
        rw [countP_eq_zero]
        intro hashValue inside picked
        rw [there hashValue inside] at picked
        exact unlisted (pickByWeight_mem (of_decide_eq_true picked))
      omega
    · have none : (List.range' border first.weight.toNat).countP (fun hashValue =>
          pickByWeight hashValue border (first :: rest) = .database db) = 0 := by
        rw [countP_eq_zero]
        intro hashValue inside picked
        rw [here hashValue inside, decide_eq_true_eq, Selection.database.injEq] at picked
        exact unlisted (picked ▸ later)
      rw [none, Nat.zero_add, countP_congr fun hashValue inside => by rw [there hashValue inside]]
      exact ih _ (fun other inside => positive other (mem_cons_of_mem _ inside)) (by omega)
        restDistinct later

theorem sum_countP_le {α β : Type} [DecidableEq β] (f : α → β) {results : List β}
    (distinct : results.Nodup) (arguments : List α) :
    (results.map fun result => arguments.countP fun argument => f argument = result).sum ≤
      arguments.length := by
  induction results generalizing arguments with
  | nil => exact Nat.zero_le _
  | cons first rest ih =>
    obtain ⟨unlisted, restDistinct⟩ := nodup_cons.mp distinct
    have remaining := ih restDistinct (arguments.filter fun argument => ¬ f argument = first)
    have same : (rest.map fun result => (arguments.filter fun argument => ¬ f argument = first).countP
          fun argument => f argument = result) =
        rest.map fun result => arguments.countP fun argument => f argument = result := by
      refine map_congr_left fun result listed => ?_
      rw [countP_filter]
      grind
    rw [same, ← countP_eq_length_filter] at remaining
    rw [map_cons, sum_cons,
      length_eq_countP_add_countP fun argument => decide (f argument = first)]
    simp only [decide_eq_true_eq] at remaining ⊢
    omega

/-! ## The residues of a database -/

/-- How many hash values below the total weight choose the database. -/
def residues (settings : SelectSettings) (dbInfos : List DbInfo) (db : DbInfo) : Nat :=
  (List.range (totalWeight dbInfos)).countP fun hash =>
    selectDatabaseByHashImpl { settings with hash } dbInfos = .database db

theorem selectDatabaseByHashImpl_eq (settings : SelectSettings) (dbInfos : List DbInfo) :
    selectDatabaseByHashImpl settings dbInfos =
      if totalWeight dbInfos = 0 then .failed .notFound
      else pickByWeight (settings.hash % totalWeight dbInfos) 0 (sortedByName dbInfos) := by
  have none : availableOf dbInfos = [] → totalWeight dbInfos = 0 := fun empty => by
    rw [totalWeight, empty]
    rfl
  change (if (availableOf dbInfos).isEmpty || decide (totalWeight dbInfos = 0) then _ else _) = _
  by_cases zero : totalWeight dbInfos = 0
  · simp [zero]
  · have some : availableOf dbInfos ≠ [] := fun empty => zero (none empty)
    rw [if_neg (by simp [zero, some]), if_neg zero]
    rfl

theorem sortedByName_subset (listed : db ∈ sortedByName dbInfos) :
    db ∈ dbInfos ∧ db.status = .available := by
  have available := (sortedByName_perm_availableOf dbInfos).subset listed
  exact ⟨mem_of_mem_filter available, of_decide_eq_true (mem_filter.mp available).2⟩

theorem selected_available (selected : selectDatabaseByHashImpl settings dbInfos = .database db) :
    db ∈ dbInfos ∧ db.status = .available := by
  rw [selectDatabaseByHashImpl_eq] at selected
  split at selected
  · cases selected
  · exact sortedByName_subset (pickByWeight_mem selected)

theorem foldl_sortedByName (dbInfos : List DbInfo) :
    ((sortedByName dbInfos).map DbInfo.weight).foldl addWeight 0 = totalWeight dbInfos := by
  have sorted := sortedByName_perm_availableOf dbInfos
  have all : availableOf (sortedByName dbInfos) = sortedByName dbInfos :=
    filter_eq_self.mpr fun db listed => decide_eq_true (sortedByName_subset listed).2
  have same : totalWeight (sortedByName dbInfos) = totalWeight (availableOf dbInfos) := totalWeight_perm sorted
  rw [totalWeight, totalWeight, all] at same
  rw [same, availableOf, availableOf, filter_filter, totalWeight, availableOf]
  simp only [Bool.and_self]

theorem selectDatabaseByHashImpl_reached (settings : SelectSettings) (dbInfos : List DbInfo) :
    selectDatabaseByHashImpl settings dbInfos ≠ .unreachable := by
  rw [selectDatabaseByHashImpl_eq]
  split
  · nofun
  · rename_i some
    have total := foldl_sortedByName dbInfos
    refine pickByWeight_reached (fun empty => some ?_) ?_
    · rw [← total, empty]
      rfl
    · rw [total]
      exact Nat.mod_lt _ (Nat.pos_of_ne_zero some)

theorem residues_eq (settings : SelectSettings) (dbInfos : List DbInfo) (db : DbInfo) :
    residues settings dbInfos db = (List.range (totalWeight dbInfos)).countP fun hashValue =>
      pickByWeight hashValue 0 (sortedByName dbInfos) = .database db := by
  refine countP_congr fun hashValue below => ?_
  have below := mem_range.mp below
  rw [selectDatabaseByHashImpl_eq, if_neg (by omega), Nat.mod_eq_of_lt below]

theorem residues_of_weighed (distinct : (dbInfos.map DbInfo.name).Nodup)
    (weighed : Weighed (availableOf dbInfos)) (listed : db ∈ dbInfos)
    (available : db.status = .available) : (residues settings dbInfos db : Int) = db.weight := by
  obtain ⟨positive, fits⟩ := weighed
  have sorted := sortedByName_perm_availableOf dbInfos
  have sum : ((sortedByName dbInfos).map DbInfo.weight).sum = ((availableOf dbInfos).map DbInfo.weight).sum :=
    (sorted.map DbInfo.weight).sum_eq
  have total := totalWeight_eq dbInfos
  rw [Int.emod_eq_of_lt (sum_weights_nonneg positive) fits] at total
  have counted := countP_pickByWeight 0
    (fun other inside => positive other (sorted.subset inside)) (by omega)
    (sorted.nodup_iff.mpr (distinct.of_map.filter _))
    (sorted.symm.subset (mem_filter.mpr ⟨listed, decide_eq_true available⟩))
  rw [sum, ← total, Int.toNat_natCast, ← range_eq_range'] at counted
  rw [residues_eq, counted]

theorem weighed_of_residues (distinct : (dbInfos.map DbInfo.name).Nodup)
    (weights : ∀ db ∈ dbInfos, db.status = .available → (residues settings dbInfos db : Int) = db.weight) :
    Weighed (availableOf dbInfos) := by
  have each : ∀ db ∈ availableOf dbInfos, (residues settings dbInfos db : Int) = db.weight :=
    fun db listed => weights db (mem_of_mem_filter listed) (of_decide_eq_true (mem_filter.mp listed).2)
  refine ⟨fun db listed => by rw [← each db listed]; exact Int.natCast_nonneg _, ?_⟩
  have chosen := sum_countP_le (fun hash => selectDatabaseByHashImpl { settings with hash } dbInfos)
    ((distinct.of_map.filter fun db => db.status = .available).map fun _ _ => Selection.database.inj)
    (.range (totalWeight dbInfos))
  rw [map_map, length_range] at chosen
  have sum : ((availableOf dbInfos).map DbInfo.weight).sum =
      (((availableOf dbInfos).map (residues settings dbInfos)).sum : Nat) := by
    rw [Nat.cast_list_sum, map_map]
    exact congrArg List.sum (map_congr_left fun db listed => (each db listed).symm)
  have total := totalWeight_eq dbInfos
  have bound := Int.emod_lt_of_pos ((availableOf dbInfos).map DbInfo.weight).sum (show (0 : Int) < 2 ^ 64 by decide)
  rw [← total] at bound
  rw [sum]
  exact lt_of_le_of_lt (Int.ofNat_le.mpr chosen) bound

theorem weight_pos_of_selected (distinct : (dbInfos.map DbInfo.name).Nodup)
    (weighed : Weighed (availableOf dbInfos))
    (selected : selectDatabaseByHashImpl settings dbInfos = .database db) : 0 < db.weight := by
  obtain ⟨listed, available⟩ := selected_available selected
  have weight : (residues settings dbInfos db : Int) = db.weight :=
    residues_of_weighed distinct weighed listed available
  rw [← weight, residues_eq]
  rw [selectDatabaseByHashImpl_eq] at selected
  split at selected
  · cases selected
  · rename_i some
    have below := Nat.mod_lt settings.hash (Nat.pos_of_ne_zero some)
    exact Int.natCast_pos.mpr
      (countP_pos_iff.mpr ⟨_, mem_range.mpr below, decide_eq_true selected⟩)

/-- The choice by hash is an available database, whatever the order of the list, and never
falls behind the loop.  The databases share the residues by weight, none with a weight of
zero being chosen, just when no weight is negative and the sum fits 64 bits. -/
theorem chosen_by_weight (settings : SelectSettings) (dbInfos : List DbInfo)
    (distinct : (dbInfos.map DbInfo.name).Nodup) :
    selectDatabaseByHashImpl settings dbInfos ≠ .unreachable ∧
    (∀ others, dbInfos.Perm others →
      selectDatabaseByHashImpl settings others = selectDatabaseByHashImpl settings dbInfos) ∧
    (∀ db, selectDatabaseByHashImpl settings dbInfos = .database db →
      db ∈ dbInfos ∧ db.status = .available ∧ (Weighed (availableOf dbInfos) → 0 < db.weight)) ∧
    ((∀ db ∈ dbInfos, db.status = .available → (residues settings dbInfos db : Int) = db.weight) ↔
      Weighed (availableOf dbInfos)) := by
  refine ⟨selectDatabaseByHashImpl_reached settings dbInfos, fun others listed => ?_,
    fun db selected => ?_, weighed_of_residues distinct,
    fun weighed db listed available => residues_of_weighed distinct weighed listed available⟩
  · rw [selectDatabaseByHashImpl_eq, selectDatabaseByHashImpl_eq, totalWeight_perm listed,
      sortedByName_perm distinct listed]
  · obtain ⟨listed, available⟩ := selected_available selected
    exact ⟨listed, available, fun weighed => weight_pos_of_selected distinct weighed selected⟩

theorem chosen_by_weight_of_two :
    let dbInfos : List DbInfo := [{ name := ['b'], weight := 2 }, { name := ['a'], weight := 1 }]
    (residues {} dbInfos { name := ['b'], weight := 2 } : Int) = 2 :=
  (chosen_by_weight {} [{ name := ['b'], weight := 2 }, { name := ['a'], weight := 1 }] (by decide)
    ).2.2.2.mpr (by simp [Weighed, availableOf]) _ mem_cons_self rfl

/-- A database of weight 2 loses a residue to the negative weight of another one, and a
database of negative weight is chosen. -/
theorem negative_weight_chosen :
    residues {} [{ name := ['a'], weight := 2 }, { name := ['b'], weight := -1 }]
      { name := ['a'], weight := 2 } = 1 ∧
    selectDatabaseByHashImpl {} [{ name := ['a'], weight := -5 }] =
      .database { name := ['a'], weight := -5 } := by
  constructor
  · rw [residues_eq, sortedByName, mergeSort_of_pairwise (by decide)]
    decide +kernel
  · decide +kernel

end YdbSdk.Topic.Federated
