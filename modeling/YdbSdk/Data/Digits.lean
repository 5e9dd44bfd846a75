import Mathlib

namespace YdbSdk.Data

/-! # Decimal digits and rounding to the nearest integer -/

def horner (number : Nat) (digits : List Nat) : Nat :=
  digits.foldl (fun number digit => number * 10 + digit) number

@[simp] theorem horner_nil (number : Nat) : horner number [] = number := rfl

@[simp] theorem horner_cons (number digit : Nat) (digits : List Nat) :
    horner number (digit :: digits) = horner (number * 10 + digit) digits := rfl

theorem horner_append (number : Nat) (first second : List Nat) :
    horner number (first ++ second) = horner (horner number first) second :=
  List.foldl_append

theorem horner_eq (number : Nat) (digits : List Nat) :
    horner number digits = number * 10 ^ digits.length + horner 0 digits := by
  induction digits generalizing number with
  | nil => simp
  | cons digit digits ih =>
    rw [horner_cons, horner_cons, ih, ih (0 * 10 + digit), List.length_cons]
    ring

theorem le_horner (number : Nat) (digits : List Nat) : number ≤ horner number digits := by
  induction digits generalizing number with
  | nil => exact le_rfl
  | cons digit digits ih =>
    rw [horner_cons]
    exact Nat.le_trans (by omega) (ih _)

variable {digits : List Nat} {number power : Nat}

theorem horner_lt (bounded : ∀ digit ∈ digits, digit < 10) (small : number < 10 ^ power) :
    horner number digits < 10 ^ (power + digits.length) := by
  induction digits generalizing number power with
  | nil => exact small
  | cons digit digits ih =>
    have first := bounded digit (by simp)
    rw [horner_cons, List.length_cons, Nat.add_comm digits.length, ← Nat.add_assoc]
    apply ih (fun other member => bounded other (by simp [member]))
    omega

theorem horner_zero_lt (bounded : ∀ digit ∈ digits, digit < 10) :
    horner 0 digits < 10 ^ digits.length := by
  have small := @horner_lt digits 0 0 bounded (by simp)
  simpa using small

theorem horner_zero_eq_zero : horner 0 digits = 0 ↔ ∀ digit ∈ digits, digit = 0 := by
  induction digits with
  | nil => simp
  | cons digit digits ih =>
    rw [horner_cons, Nat.zero_add, horner_eq, List.forall_mem_cons, ← ih]
    constructor
    · intro zero
      have power : 0 < 10 ^ digits.length := Nat.pow_pos (by omega)
      obtain ⟨left, right⟩ := Nat.add_eq_zero_iff.mp zero
      exact ⟨(Nat.mul_eq_zero.mp left).resolve_right (Nat.ne_of_gt power), right⟩
    · intro zeros
      simp [zeros.1, zeros.2]

/-- The integer is nearest to the number; of two it is the even one. -/
def NearestEven (number : ℚ) (rounded : ℤ) : Prop :=
  |number - rounded| < 1 / 2 ∨ (|number - rounded| = 1 / 2 ∧ Even rounded)

theorem NearestEven.neg {number : ℚ} (nearest : NearestEven number rounded) :
    NearestEven (-number) (-rounded) := by
  have same : |-number - ((-rounded : ℤ) : ℚ)| = |number - rounded| := by
    rw [← abs_neg]
    push_cast
    ring
  simpa only [NearestEven, same, even_neg] using nearest

theorem NearestEven.unique {number : ℚ} {first second : ℤ} (nearest : NearestEven number first)
    (alsoNearest : NearestEven number second) : first = second := by
  have bound : ∀ {rounded : ℤ}, NearestEven number rounded → |number - rounded| ≤ 1 / 2 := by
    intro rounded rounds
    rcases rounds with strict | ⟨tie, _⟩
    · exact le_of_lt strict
    · exact le_of_eq tie
  have apart : |(first : ℚ) - second| ≤ 1 := by
    have first' := abs_le.mp (bound nearest)
    have second' := abs_le.mp (bound alsoNearest)
    rw [abs_le]
    constructor <;> linarith [first'.1, first'.2, second'.1, second'.2]
  have close : |first - second| ≤ 1 := by exact_mod_cast apart
  by_contra different
  -- Two different candidates are neighbours, so both are ties and both are even.
  have neighbours : first - second = 1 ∨ first - second = -1 := by
    rw [abs_le] at close
    omega
  rcases nearest with strict | ⟨tie, even⟩
  · have first' := abs_lt.mp strict
    have second' := abs_le.mp (bound alsoNearest)
    rcases neighbours with up | down
    · have distance : (first : ℚ) - second = 1 := by exact_mod_cast up
      linarith [first'.1, first'.2, second'.1, second'.2]
    · have distance : (first : ℚ) - second = -1 := by exact_mod_cast down
      linarith [first'.1, first'.2, second'.1, second'.2]
  · rcases alsoNearest with strict | ⟨_, alsoEven⟩
    · have first' := abs_le.mp (le_of_eq tie)
      have second' := abs_lt.mp strict
      rcases neighbours with up | down
      · have distance : (first : ℚ) - second = 1 := by exact_mod_cast up
        linarith [first'.1, first'.2, second'.1, second'.2]
      · have distance : (first : ℚ) - second = -1 := by exact_mod_cast down
        linarith [first'.1, first'.2, second'.1, second'.2]
    · obtain ⟨half, rfl⟩ := even
      obtain ⟨other, rfl⟩ := alsoEven
      omega

theorem nearestEven_int (number : ℤ) : NearestEven number number := by
  left
  simp

theorem nearestEven_div {whole remainder divisor : Nat} (positive : 0 < divisor) (up : Bool)
    (less : remainder < divisor) (rounds : up = true ↔
      divisor < 2 * remainder ∨ (divisor = 2 * remainder ∧ whole % 2 = 1)) :
    NearestEven (((whole * divisor + remainder : Nat) : ℚ) / divisor)
      ((whole + up.toNat : Nat) : ℤ) := by
  have divisorPositive : (0 : ℚ) < divisor := by exact_mod_cast positive
  have shifted : ((whole * divisor + remainder : Nat) : ℚ) / divisor =
      whole + (remainder : ℚ) / divisor := by
    push_cast
    field_simp
  have belowOne : (remainder : ℚ) / divisor < 1 := by
    rw [div_lt_one divisorPositive]
    exact_mod_cast less
  have nonnegative : (0 : ℚ) ≤ (remainder : ℚ) / divisor := by positivity
  rw [NearestEven, shifted]
  cases up with
  | true =>
    rcases rounds.mp rfl with above | ⟨tie, odd⟩
    · left
      have half : (1 : ℚ) / 2 < (remainder : ℚ) / divisor := by
        rw [div_lt_div_iff₀ (by norm_num) divisorPositive]
        have : (divisor : ℚ) < 2 * remainder := by exact_mod_cast above
        linarith
      rw [abs_lt]
      push_cast
      simp only [Bool.toNat_true, Nat.cast_one]
      constructor <;> linarith
    · right
      have half : (remainder : ℚ) / divisor = 1 / 2 := by
        rw [div_eq_div_iff (ne_of_gt divisorPositive) (by norm_num)]
        have : (divisor : ℚ) = 2 * remainder := by exact_mod_cast tie
        linarith
      refine ⟨?_, ?_⟩
      · rw [half]
        push_cast
        simp only [Bool.toNat_true, Nat.cast_one]
        rw [show (whole : ℚ) + 1 / 2 - (whole + 1) = -(1 / 2) by ring, abs_neg]
        norm_num
      · rw [Int.even_coe_nat, Nat.even_iff]
        simp only [Bool.toNat_true]
        omega
  | false =>
    have notUp : ¬ (divisor < 2 * remainder ∨ (divisor = 2 * remainder ∧ whole % 2 = 1)) :=
      fun isUp => by simpa using rounds.mpr isUp
    have below : (remainder : ℚ) / divisor ≤ 1 / 2 := by
      rw [div_le_div_iff₀ divisorPositive (by norm_num)]
      have : 2 * remainder ≤ divisor := by omega
      have : (2 : ℚ) * remainder ≤ divisor := by exact_mod_cast this
      linarith
    have distance : (whole : ℚ) + (remainder : ℚ) / divisor - ((whole + false.toNat : Nat) : ℤ) =
        (remainder : ℚ) / divisor := by
      push_cast
      simp
    rw [distance, abs_of_nonneg nonnegative]
    rcases lt_or_eq_of_le below with strict | tie
    · exact .inl strict
    · right
      refine ⟨tie, ?_⟩
      rw [div_eq_div_iff (ne_of_gt divisorPositive) (by norm_num)] at tie
      have same : remainder * 2 = 1 * divisor := by exact_mod_cast tie
      rw [Int.even_coe_nat, Nat.even_iff]
      simp only [Bool.toNat_false]
      omega

end YdbSdk.Data
