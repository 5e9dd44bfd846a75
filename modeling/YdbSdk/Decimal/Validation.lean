import YdbSdk.Decimal.Parsing

namespace YdbSdk.Decimal

open Data List

/-! # Validation

`isValid` looks at every character, `fromString` returns infinity at the first whole digit that
does not fit. -/

theorem validFrom_point : validFrom true s = s.all Char.isDigit := by
  induction s with
  | nil => rfl
  | cons c s ih =>
    by_cases point : c = '.'
    · subst point
      rfl
    · by_cases isDigit : c.isDigit = true <;> simp [validFrom, point, ih]

theorem beyondFive_invalid (invalid : s.all Char.isDigit = false) (decided : beyondFive plus s = some (up, rest)) :
    rest.all Char.isDigit = false := by
  induction s generalizing plus with
  | nil => contradiction
  | cons c s ih =>
    cases plus with
    | true =>
      cases decided
      exact invalid
    | false =>
      by_cases isDigit : c.isDigit = true
      · simp only [beyondFive, isDigit] at decided
        exact ih (by simpa [isDigit] using invalid) decided
      · simp [beyondFive, isDigit] at decided

theorem roundsUp_invalid (invalid : validFrom true (c :: s) = false) : roundsUp v c s = none := by
  rw [validFrom_point] at invalid
  by_cases isDigit : c.isDigit = true
  · have rest : s.all Char.isDigit = false := by simpa [isDigit] using invalid
    by_cases above : '5' < c
    · simp [roundsUp, above, rest]
    · by_cases tie : c = '5'
      · cases decided : beyondFive (v % 2 == 1) s with
        | none => simp [roundsUp, tie, decided]
        | some found => simp [roundsUp, tie, decided, beyondFive_invalid rest decided]
      · simp [roundsUp, above, tie, rest]
  · simp [roundsUp, isDigit]

/-- A character that does not belong is found, unless the loop returns before it. -/
theorem scan_invalid (invalid : validFrom dot s = false) :
    scan s dot v integral scale = .failed ∨ scan s dot v integral scale = .overflowed ∨
      ∃ value c rest, scan s dot v integral scale = .stopped value 0 (c :: rest) ∧ roundsUp value c rest = none := by
  fun_induction scan s dot v integral scale with
  | case1 => contradiction
  | case2 => exact .inl rfl
  | case4 c s dot v integral scale differs outside =>
    obtain ⟨rfl, rfl⟩ := outside
    exact .inr (.inr ⟨v, c, s, rfl, roundsUp_invalid invalid⟩)
  | _ => grind [validFrom]

theorem scan_point (point : dot = true) : scan s dot v integral scale ≠ .overflowed := by
  fun_induction scan s dot v integral scale with grind

/-- The number before the point. -/
def wholePart (str : List Char) : Nat :=
  horner 0 (((unsignedText str).takeWhile Char.isDigit).map charDigit)

theorem scan_fits (within : room ≤ 35) (small : wholePart str < 10 ^ room) :
    scan (unsignedText str) false 0 room scale ≠ .overflowed := by
  obtain ⟨digits, same⟩ : ∃ digits, (unsignedText str).takeWhile Char.isDigit = Literal.digitsText digits :=
    exists_digits (by rw [validFrom_point]; exact all_takeWhile)
  have whole : wholePart str = horner 0 (digits.map Fin.val) := by
    simp [wholePart, same, Literal.digitsText, Function.comp_def]
  rw [← takeWhile_append_dropWhile (p := Char.isDigit) (l := unsignedText str), same]
  rcases scan_whole digits ((unsignedText str).dropWhile Char.isDigit) scale within (.start room) with
    ⟨left, -, continues⟩ | ⟨overflows, -⟩
  · rw [continues]
    cases rest : (unsignedText str).dropWhile Char.isDigit with
    | nil => simp [scan]
    | cons c rest =>
      have noDigit := head_dropWhile_not Char.isDigit (by rw [rest]; simp)
      simp only [rest, head_cons] at noDigit
      by_cases point : c = '.'
      · simpa [scan, point] using scan_point rfl
      · simp [scan, point, noDigit]
  · omega

theorem Literal.returned_range (literal : Literal) (within : precision ≤ 35) :
    0 ≤ literal.returned precision scale ∧ literal.returned precision scale ≤ inf := by
  have limit : 10 ^ precision ≤ 10 ^ 35 := Nat.pow_le_pow_right (by omega) within
  have infinity : inf = ((10 ^ 35 : Nat) : ℤ) := by decide
  rw [returned]
  split <;> omega

end YdbSdk.Decimal
