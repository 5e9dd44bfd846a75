import Mathlib

namespace YdbSdk.Data

open List

/-! # Sets of numbers as separate intervals

The half-open intervals of a set, in ascending order.  Operations look at the two
neighbours of the place where an interval belongs.
-/

abbrev Intervals := List (Nat × Nat)

namespace Intervals

def below (set : Intervals) (start : Nat) : Intervals := set.takeWhile (·.1 < start)

def above (set : Intervals) (start : Nat) : Intervals := set.dropWhile (·.1 < start)

def intersects (set : Intervals) (start stop : Nat) : Bool :=
  (above set start).head?.any (·.1 < stop) || (below set start).getLast?.any (start < ·.2)

def attach (interval : Nat × Nat) : Intervals → Intervals
  | [] => [interval]
  | next :: rest =>
    if next.1 = interval.2 then (interval.1, next.2) :: rest else interval :: next :: rest

def insertInterval (set : Intervals) (start stop : Nat) : Intervals :=
  match (below set start).getLast? with
  | none => attach (start, stop) (above set start)
  | some previous =>
    if previous.2 = start then
      (below set start).dropLast ++ attach (previous.1, stop) (above set start)
    else below set start ++ attach (start, stop) (above set start)

def eraseInterval (set : Intervals) (start stop : Nat) : Intervals :=
  set.flatMap fun interval =>
    [(interval.1, min interval.2 start), (max interval.1 stop, interval.2)].filter
      fun part => decide (part.1 < part.2)

def Covered (set : Intervals) (number : Nat) : Prop :=
  ∃ interval ∈ set, interval.1 ≤ number ∧ number < interval.2

/-- No interval is empty, and none reaches into the next. -/
structure Separate (set : Intervals) : Prop where
  nonempty : ∀ interval ∈ set, interval.1 < interval.2
  ordered : set.Pairwise fun first second => first.2 ≤ second.1

variable {set left right : Intervals} {start stop number : Nat} {interval : Nat × Nat}

theorem covered_append : Covered (left ++ right) number ↔ Covered left number ∨ Covered right number := by
  simp [Covered, or_and_right, exists_or]

theorem separate_append :
    Separate (left ++ right) ↔ Separate left ∧ Separate right ∧
      ∀ first ∈ left, ∀ second ∈ right, first.2 ≤ second.1 := by
  constructor
  · intro separate
    obtain ⟨ordered, later, apart⟩ := pairwise_append.mp separate.ordered
    exact ⟨⟨fun _ member => separate.nonempty _ (by simp [member]), ordered⟩,
      ⟨fun _ member => separate.nonempty _ (by simp [member]), later⟩, apart⟩
  · rintro ⟨first, second, apart⟩
    refine ⟨fun interval member => ?_, pairwise_append.mpr ⟨first.ordered, second.ordered, apart⟩⟩
    exact (mem_append.mp member).elim (first.nonempty _) (second.nonempty _)

theorem below_append_above : below set start ++ above set start = set :=
  takeWhile_append_dropWhile

theorem separate_cons :
    Separate (interval :: set) ↔
      interval.1 < interval.2 ∧ (∀ later ∈ set, interval.2 ≤ later.1) ∧ Separate set := by
  constructor
  · intro separate
    obtain ⟨apart, ordered⟩ := pairwise_cons.mp separate.ordered
    exact ⟨separate.nonempty _ (by simp), apart,
      ⟨fun _ member => separate.nonempty _ (by simp [member]), ordered⟩⟩
  · rintro ⟨nonempty, apart, separate⟩
    exact ⟨forall_mem_cons.mpr ⟨nonempty, separate.nonempty⟩,
      pairwise_cons.mpr ⟨apart, separate.ordered⟩⟩

theorem Separate.apart (separate : Separate set) (apart : intersects set start stop = false) :
    (∀ interval ∈ below set start, interval.2 ≤ start) ∧
      ∀ interval ∈ above set start, stop ≤ interval.1 := by
  rw [← @below_append_above set start] at separate
  obtain ⟨lower, upper, -⟩ := separate_append.mp separate
  simp only [intersects, Bool.or_eq_false_iff] at apart
  constructor
  · -- The last of the lower intervals ends furthest.
    cases reversed : (below set start).getLast? with
    | none => simp [List.getLast?_eq_none_iff.mp reversed]
    | some previous =>
      have ends : previous.2 ≤ start := by simpa [reversed] using apart.2
      rw [List.getLast?_eq_some_iff] at reversed
      obtain ⟨front, split⟩ := reversed
      rw [split] at lower ⊢
      obtain ⟨-, -, before⟩ := separate_append.mp lower
      have nonempty := lower.nonempty previous (by simp)
      intro interval member
      rcases mem_append.mp member with inside | last
      · have := before interval inside previous (by simp)
        omega
      · cases mem_singleton.mp last
        exact ends
  · cases upward : above set start with
    | nil => simp
    | cons next rest =>
      have begins : stop ≤ next.1 := by simpa [upward] using apart.1
      rw [upward] at upper
      obtain ⟨nonempty, behind, -⟩ := separate_cons.mp upper
      intro interval member
      rcases mem_cons.mp member with rfl | inside
      · exact begins
      · have := behind interval inside
        omega

theorem Separate.not_covered (separate : Separate set) (apart : intersects set start stop = false)
    (within : start ≤ number ∧ number < stop) : ¬ Covered set number := by
  obtain ⟨before, behind⟩ := separate.apart apart
  rw [← @below_append_above set start, covered_append]
  rintro (⟨interval, member, inside⟩ | ⟨interval, member, inside⟩)
  · have := before interval member
    omega
  · have := behind interval member
    omega

theorem separate_attach (separate : Separate set) (nonempty : interval.1 < interval.2)
    (apart : ∀ later ∈ set, interval.2 ≤ later.1) : Separate (attach interval set) := by
  cases set with
  | nil => exact separate_cons.mpr ⟨nonempty, apart, separate⟩
  | cons next rest =>
    obtain ⟨filled, behind, remaining⟩ := separate_cons.mp separate
    rw [attach]
    split
    case isTrue touching =>
      exact separate_cons.mpr ⟨by omega, behind, remaining⟩
    case isFalse => exact separate_cons.mpr ⟨nonempty, apart, separate⟩

theorem mem_attach (member : later ∈ attach interval set) :
    later.1 = interval.1 ∨ later ∈ set := by
  cases set with
  | nil => simp_all [attach]
  | cons next rest =>
    rw [attach] at member
    split at member <;> rcases mem_cons.mp member with rfl | inside <;> simp_all

theorem covered_attach (separate : Separate set) (nonempty : interval.1 < interval.2) :
    Covered (attach interval set) number ↔
      (interval.1 ≤ number ∧ number < interval.2) ∨ Covered set number := by
  cases set with
  | nil => simp [attach, Covered]
  | cons next rest =>
    have filled := separate.nonempty next (by simp)
    rw [attach]
    split
    case isTrue touching =>
      simp only [Covered, exists_mem_cons_iff]
      grind
    case isFalse => simp [Covered]

theorem separate_append_attach (lower : Separate left) (upper : Separate right)
    (nonempty : interval.1 < interval.2) (before : ∀ first ∈ left, first.2 ≤ interval.1)
    (behind : ∀ later ∈ right, interval.2 ≤ later.1) : Separate (left ++ attach interval right) := by
  refine separate_append.mpr ⟨lower, separate_attach upper nonempty behind, ?_⟩
  intro first inside later member
  have ends := before first inside
  rcases mem_attach member with begins | remains
  · omega
  · have begins := behind later remains
    omega

theorem insertInterval_spec (separate : Separate set) (nonempty : start < stop)
    (apart : intersects set start stop = false) :
    Separate (insertInterval set start stop) ∧ ∀ number,
      Covered (insertInterval set start stop) number ↔
        Covered set number ∨ start ≤ number ∧ number < stop := by
  obtain ⟨before, behind⟩ := separate.apart apart
  have whole := @below_append_above set start
  rw [← whole] at separate
  obtain ⟨lower, upper, -⟩ := separate_append.mp separate
  have covered (number : Nat) : Covered (below set start ++ attach (start, stop) (above set start)) number ↔
      Covered set number ∨ start ≤ number ∧ number < stop := by
    rw [covered_append, covered_attach upper nonempty, ← congrArg (Covered · number) whole,
      covered_append]
    tauto
  unfold insertInterval
  split
  case h_1 none =>
    rw [List.getLast?_eq_none_iff] at none
    rw [none] at covered
    exact ⟨separate_attach upper nonempty behind, covered⟩
  case h_2 previous last =>
    split
    case isFalse => exact ⟨separate_append_attach lower upper nonempty before behind, covered⟩
    case isTrue touching =>
      obtain ⟨front, split⟩ := List.getLast?_eq_some_iff.mp last
      simp only [split, dropLast_concat] at lower covered ⊢
      obtain ⟨first, -, earlier⟩ := separate_append.mp lower
      have filled : previous.1 < stop := by
        have := lower.nonempty previous (by simp)
        omega
      constructor
      · exact separate_append_attach first upper filled
          (fun interval inside => earlier interval inside previous (by simp)) behind
      · intro number
        rw [← covered number, append_assoc, covered_append, covered_append,
          covered_attach upper filled, singleton_append]
        have := lower.nonempty previous (by simp)
        have := @covered_attach (above set start) number (start, stop) upper nonempty
        simp only [Covered, exists_mem_cons_iff] at this ⊢
        grind

end Intervals

end YdbSdk.Data
