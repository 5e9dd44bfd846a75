import YdbSdk.Decimal.Text

namespace YdbSdk.Decimal

open Data List

/-! # Parsing is exact

The loop over the characters keeps the number read so far and counts the whole digits from the
first that is not zero.  The digits beyond the scale decide once, so that what is returned is the
nearest integer. -/

@[simp] theorem digitChar_isDigit (digit : Fin 10) : (digitChar digit).isDigit = true := by
  revert digit
  decide

@[simp] theorem charDigit_digitChar (digit : Fin 10) : charDigit (digitChar digit) = digit := by
  revert digit
  decide

@[simp] theorem digitChar_ne_point (digit : Fin 10) : digitChar digit ≠ '.' := by
  revert digit
  decide

theorem digitChar_ne_sign (digit : Fin 10) : digitChar digit ≠ '-' ∧ digitChar digit ≠ '+' := by
  revert digit
  decide

theorem five_lt_digitChar (digit : Fin 10) : '5' < digitChar digit ↔ 5 < digit.val := by
  revert digit
  decide

theorem digitChar_eq_five (digit : Fin 10) : digitChar digit = '5' ↔ digit.val = 5 := by
  revert digit
  decide

theorem digitChar_ne_zero (digit : Fin 10) : (digitChar digit != '0') = decide (digit.val ≠ 0) := by
  revert digit
  decide

theorem digitsText_all (digits : List (Fin 10)) :
    (Literal.digitsText digits).all Char.isDigit = true := by
  simp [Literal.digitsText]

theorem vals_lt {digits : List (Fin 10)} : ∀ digit ∈ digits.map Fin.val, digit < 10 := by
  intro digit member
  obtain ⟨source, _, rfl⟩ := mem_map.mp member
  exact source.isLt

theorem unsigned_of_lt (small : value < 10 ^ 36) : unsigned value = value :=
  Nat.mod_eq_of_lt (Nat.lt_trans small (by decide))

theorem pow_le_limit (within : power ≤ 36) : 10 ^ power ≤ 10 ^ 36 :=
  Nat.pow_le_pow_right (by omega) within

theorem getDivider_eq (within : scale ≤ 35) : getDivider scale = 10 ^ scale := by
  induction scale with
  | zero => rfl
  | succ scale ih =>
    have small : 10 ^ scale * 10 < 10 ^ 36 := by
      rw [← Nat.pow_succ]
      exact Nat.pow_lt_pow_right (by omega) (by omega)
    rw [getDivider, ih (by omega), unsigned_of_lt small, Nat.pow_succ]

theorem scaleUp_eq (small : v * 10 ^ scale < 10 ^ 36) : scaleUp scale v = v * 10 ^ scale := by
  induction scale generalizing v with
  | zero => simp [scaleUp]
  | succ scale ih =>
    have shifted : v * 10 * 10 ^ scale = v * 10 ^ (scale + 1) := by
      ring
    have next : v * 10 ≤ v * 10 * 10 ^ scale := Nat.le_mul_of_pos_right _ (Nat.pow_pos (by omega))
    rw [scaleUp, unsigned_of_lt (by omega), ih (by omega), shifted]

theorem signed_eq (neg : Bool) (small : v < 10 ^ 36) :
    signed neg v = if neg then -(v : Int) else v := by
  rw [signed, Int.bmod_eq_of_le]
  · cases neg with
    | true => omega
    | false => omega
  · cases neg with
    | true => omega
    | false => omega

/-- Of the room for whole digits some are used, from the first that is not zero. -/
def Counted (room integral v : Nat) : Prop :=
  ∃ used, integral + used = room ∧ v < 10 ^ used ∧ (used = 0 ∨ 10 ^ used ≤ v * 10)

theorem Counted.start (room : Nat) : Counted room room 0 := ⟨0, by simp⟩

theorem Counted.lt (counted : Counted room integral v) : v < 10 ^ room := by
  obtain ⟨used, total, below, _⟩ := counted
  exact below.trans_le (Nat.pow_le_pow_right (by omega) (by omega))

theorem Counted.zero (counted : Counted room integral v) (zero : v * 10 + digit = 0) :
    Counted room integral (v * 10 + digit) := by
  obtain ⟨used, total, _, above⟩ := counted
  have none : used = 0 := by
    rcases above with none | above
    · exact none
    · omega
  subst none
  exact ⟨0, total, by simp [zero], .inl rfl⟩

theorem Counted.next (counted : Counted room integral v) (isDigit : digit < 10)
    (positive : 0 < v * 10 + digit) (left : integral ≠ 0) :
    Counted room (integral - 1) (v * 10 + digit) := by
  obtain ⟨used, total, below, above⟩ := counted
  refine ⟨used + 1, by omega, ?_, .inr ?_⟩
  · omega
  · rcases above with none | above
    · subst none
      omega
    · omega

theorem Counted.overflow (counted : Counted room 0 v) (positive : 0 < v * 10 + digit) :
    10 ^ room ≤ v * 10 + digit := by
  obtain ⟨used, total, _, above⟩ := counted
  obtain rfl : used = room := by omega
  rcases above with none | above
  · subst none
    exact positive
  · omega

/-- Reading whole digits, either all fit into the room or the loop stops at the first that
does not. -/
theorem scan_whole (digits : List (Fin 10)) (rest : List Char) (scale : Nat) (within : room ≤ 35)
    (counted : Counted room integral v) :
    (∃ left, Counted room left (horner v (digits.map Fin.val)) ∧
      scan (Literal.digitsText digits ++ rest) false v integral scale =
        scan rest false (horner v (digits.map Fin.val)) left scale) ∨
    (10 ^ room ≤ horner v (digits.map Fin.val) ∧
      scan (Literal.digitsText digits ++ rest) false v integral scale = .overflowed) := by
  induction digits generalizing integral v with
  | nil => exact .inl ⟨integral, counted, rfl⟩
  | cons digit digits ih =>
    have small := counted.lt
    have limit := pow_le_limit (Nat.le_succ_of_le within)
    have limited : 10 ^ room * 10 ≤ 10 ^ 36 := by
      rw [← Nat.pow_succ]
      exact pow_le_limit (by omega)
    have isDigit := digit.isLt
    have tenfold : unsigned (v * 10) = v * 10 := unsigned_of_lt (by omega)
    have first : scan (Literal.digitsText (digit :: digits) ++ rest) false v integral scale =
        if 0 < v * 10 + digit then
          if integral = 0 then .overflowed
          else scan (Literal.digitsText digits ++ rest) false (v * 10 + digit)
            (integral - 1) scale
        else scan (Literal.digitsText digits ++ rest) false (v * 10 + digit) integral scale := by
      simp only [Literal.digitsText, map_cons, cons_append, scan]
      rw [tenfold, charDigit_digitChar, unsigned_of_lt (by omega)]
      simp
    rw [map_cons, horner_cons, first]
    split
    case isTrue positive =>
        split
        case isTrue full =>
            subst full
            exact .inr ⟨(counted.overflow positive).trans (le_horner _ _), rfl⟩
        case isFalse left => exact ih (counted.next isDigit positive left)
    case isFalse zero => exact ih (counted.zero (by omega))

/-- Reading the digits after the point, as many as the scale are kept. -/
theorem scan_fraction (digits : List (Fin 10)) {used : Nat} (integral : Nat) (below : v < 10 ^ used)
    (within : used + scale ≤ 35) :
    scan (Literal.digitsText digits) true v integral scale =
      .stopped (horner v ((digits.take scale).map Fin.val)) (scale - digits.length)
        (Literal.digitsText (digits.drop scale)) := by
  induction digits generalizing v used scale with
  | nil => simp [Literal.digitsText, scan]
  | cons digit digits ih =>
    cases scale with
    | zero => simp [Literal.digitsText, scan]
    | succ scale =>
      have isDigit := digit.isLt
      have limited : 10 ^ used * 10 ≤ 10 ^ 36 := by
        rw [← Nat.pow_succ]
        exact pow_le_limit (by omega)
      have tenfold : unsigned (v * 10) = v * 10 := unsigned_of_lt (by omega)
      have next : v * 10 + digit < 10 ^ (used + 1) := by
        rw [Nat.pow_succ]
        omega
      have remaining : used + 1 + scale ≤ 35 := by omega
      have rest := ih next remaining
      simp only [Literal.digitsText] at rest
      simp only [Literal.digitsText, map_cons, scan]
      rw [tenfold, charDigit_digitChar, unsigned_of_lt (by omega)]
      simpa using rest

theorem beyondFive_digits (plus : Bool) (digits : List (Fin 10)) :
    ∃ rest : List (Fin 10), beyondFive plus (Literal.digitsText digits) =
      some (plus || decide (0 < horner 0 (digits.map Fin.val)), Literal.digitsText rest) := by
  induction digits generalizing plus with
  | nil =>
    cases plus with
    | true => exact ⟨[], rfl⟩
    | false => exact ⟨[], rfl⟩
  | cons digit digits ih =>
    cases plus with
    | true => exact ⟨digit :: digits, rfl⟩
    | false =>
      obtain ⟨rest, decided⟩ := ih (decide (digit.val ≠ 0))
      refine ⟨rest, ?_⟩
      have same : (decide (digit.val ≠ 0) || decide (0 < horner 0 (digits.map Fin.val))) =
          decide (0 < horner 0 ((digit :: digits).map Fin.val)) := by
        rw [Bool.eq_iff_iff]
        have zeros := @horner_zero_eq_zero (digits.map Fin.val)
        have allZeros := @horner_zero_eq_zero ((digit :: digits).map Fin.val)
        simp only [map_cons, forall_mem_cons] at allZeros
        simp only [Bool.or_eq_true, decide_eq_true_eq, Nat.pos_iff_ne_zero, ne_eq, zeros,
          map_cons, allZeros]
        tauto
      simp only [Literal.digitsText, map_cons, beyondFive, digitChar_isDigit,
        digitChar_ne_zero, not_true_eq_false, if_false] at decided ⊢
      rw [decided, same]
      simp

/-- The digits round up when they are more than a half, or a half after an odd digit. -/
def RoundsUp (v : Nat) (digits : List (Fin 10)) : Prop :=
  10 ^ digits.length < 2 * horner 0 (digits.map Fin.val) ∨
    (10 ^ digits.length = 2 * horner 0 (digits.map Fin.val) ∧ v % 2 = 1)

instance (v : Nat) (digits : List (Fin 10)) : Decidable (RoundsUp v digits) :=
  inferInstanceAs (Decidable (_ ∨ _))

theorem not_roundsUp_nil (v : Nat) : ¬ RoundsUp v [] := by
  simp [RoundsUp]

theorem roundsUp_eq (v : Nat) (digit : Fin 10) (digits : List (Fin 10)) :
    roundsUp v (digitChar digit) (Literal.digitsText digits) =
      some (decide (RoundsUp v (digit :: digits))) := by
  have power : 0 < 10 ^ digits.length := Nat.pow_pos (by omega)
  have below := horner_zero_lt (@vals_lt digits)
  rw [length_map] at below
  have unfolded : RoundsUp v (digit :: digits) ↔
      10 ^ digits.length * 10 <
        2 * (digit.val * 10 ^ digits.length + horner 0 (digits.map Fin.val)) ∨
      (10 ^ digits.length * 10 =
        2 * (digit.val * 10 ^ digits.length + horner 0 (digits.map Fin.val)) ∧ v % 2 = 1) := by
    rw [RoundsUp, length_cons, Nat.pow_succ, map_cons, horner_cons, horner_eq,
      Nat.zero_mul, Nat.zero_add, length_map]
  obtain ⟨rest, decided⟩ := beyondFive_digits (v % 2 == 1) digits
  generalize horner 0 (digits.map Fin.val) = beyond at below unfolded decided
  by_cases above : 5 < digit.val
  · -- more than a half
    have up : RoundsUp v (digit :: digits) := by
      have : 6 * 10 ^ digits.length ≤ digit.val * 10 ^ digits.length :=
        Nat.mul_le_mul_right _ above
      exact unfolded.mpr (.inl (by omega))
    simp [roundsUp, five_lt_digitChar, above, digitsText_all, up]
  · by_cases tie : digit.val = 5
    · -- the digits after the five decide
      have same : (v % 2 == 1 || decide (0 < beyond)) = decide (RoundsUp v (digit :: digits)) := by
        rw [Bool.eq_iff_iff, decide_eq_true_eq, unfolded, tie, Bool.or_eq_true, beq_iff_eq,
          decide_eq_true_eq]
        omega
      rw [same] at decided
      have isFive : digitChar digit = '5' := (digitChar_eq_five digit).mpr tie
      simp [roundsUp, isFive, decided, digitsText_all]
    · -- less than a half
      have down : ¬ RoundsUp v (digit :: digits) := by
        have : digit.val * 10 ^ digits.length ≤ 4 * 10 ^ digits.length :=
          Nat.mul_le_mul_right _ (by omega)
        intro up
        have := unfolded.mp up
        omega
      simp [roundsUp, five_lt_digitChar, digitChar_eq_five, above, tie, digitsText_all, down]

namespace Literal

variable {literal : Literal} {v room scale integral digit : Nat}

def body (literal : Literal) : List Char :=
  digitsText literal.whole ++ fractionText literal.fraction

theorem text_eq (plain : literal.exponent = none) :
    literal.text = signText literal.sign ++ literal.body := by
  simp [text, plain, exponentText, body]

theorem body_cases (literal : Literal) :
    literal.body = [] ∨ (∃ digit rest, literal.body = digitChar (digit : Fin 10) :: rest) ∨
      ∃ rest, literal.body = '.' :: rest := by
  rcases literal with ⟨sign, whole, fraction, exponent⟩
  cases whole with
  | nil =>
    cases fraction with
    | none => exact .inl rfl
    | some digits => exact .inr (.inr ⟨_, rfl⟩)
  | cons digit whole => exact .inr (.inl ⟨digit, _, rfl⟩)

theorem unsignedText_body : unsignedText literal.body = literal.body := by
  rcases literal.body_cases with empty | ⟨digit, rest, starts⟩ | ⟨rest, starts⟩
  · rw [empty]
    rfl
  · have noSign := digitChar_ne_sign digit
    rw [starts, unsignedText]
    · intro other same
      exact noSign.1 (List.cons.inj same).1
    · intro other same
      exact noSign.2 (List.cons.inj same).1
  · rw [starts]
    rfl

theorem head_body : (literal.body.head? == some '-') = false := by
  rcases literal.body_cases with empty | ⟨digit, rest, starts⟩ | ⟨rest, starts⟩
  · simp [empty]
  · simp [starts, (digitChar_ne_sign digit).1]
  · simp [starts]

theorem unsignedText_text (plain : literal.exponent = none) :
    unsignedText literal.text = literal.body := by
  rw [text_eq plain]
  cases literal.sign with
  | none => exact unsignedText_body
  | some neg =>
    cases neg with
    | true => rfl
    | false => rfl

theorem head_text (plain : literal.exponent = none) :
    (literal.text.head? == some '-') = literal.negative := by
  rw [text_eq plain, negative]
  cases literal.sign with
  | none => exact head_body
  | some neg =>
    cases neg with
    | true => rfl
    | false => rfl

theorem body_chars (literal : Literal) : ∀ c ∈ literal.body, c.isDigit = true ∨ c = '.' := by
  intro c member
  have digitsOnly : ∀ digits, c ∈ digitsText digits → c.isDigit = true := by
    intro digits inside
    exact all_eq_true.mp (digitsText_all digits) c inside
  rcases mem_append.mp member with whole | fraction
  · exact .inl (digitsOnly _ whole)
  · cases found : literal.fraction with
    | none => simp [found, fractionText] at fraction
    | some digits =>
      rw [found, fractionText, mem_cons] at fraction
      rcases fraction with point | inside
      · exact .inr point
      · exact .inl (digitsOnly _ inside)

end Literal

theorem not_special (s : List Char) (belongs : c.isDigit = true ∨ c = '.') :
    isInf (c :: s) = false ∧ isNan (c :: s) = false := by
  have letters : c ≠ 'I' ∧ c ≠ 'i' ∧ c ≠ 'N' ∧ c ≠ 'n' := by
    rcases belongs with digit | rfl
    · refine ⟨?_, ?_, ?_, ?_⟩ <;>
        · intro same
          rw [same] at digit
          exact absurd digit (by decide)
    · decide
  obtain ⟨upperI, lowerI, upperN, lowerN⟩ := letters
  unfold isInf isNan
  constructor
  · split
    case h_1 found =>
        obtain ⟨rfl, -⟩ := List.cons.inj found
        simp [upperI, lowerI]
    case h_2 => rfl
  · split
    case h_1 found =>
        obtain ⟨rfl, -⟩ := List.cons.inj found
        simp [upperN, lowerN]
    case h_2 => rfl

theorem Literal.body_not_special (literal : Literal) :
    isInf literal.body = false ∧ isNan literal.body = false := by
  have chars := literal.body_chars
  cases shape : literal.body with
  | nil => exact ⟨rfl, rfl⟩
  | cons c s => exact not_special s (chars c (by simp [shape]))

theorem validFrom_digits (dot : Bool) (digits : List (Fin 10)) (rest : List Char) :
    validFrom dot (Literal.digitsText digits ++ rest) = validFrom dot rest := by
  induction digits with
  | nil => rfl
  | cons digit digits ih => simpa [Literal.digitsText, validFrom] using ih

theorem exists_digit (isDigit : c.isDigit = true) :
    ∃ digit : Fin 10, digitChar digit = c := by
  simp only [Char.isDigit, Bool.and_eq_true, decide_eq_true_eq] at isDigit
  have low : 48 ≤ c.toNat := isDigit.1
  have high : c.toNat ≤ 57 := isDigit.2
  refine ⟨⟨c.toNat - 48, by omega⟩, ?_⟩
  rw [digitChar, show '0'.toNat + (c.toNat - 48) = c.toNat by simp; omega, Char.ofNat_toNat]

theorem exists_digits (valid : validFrom true s = true) :
    ∃ digits, s = Literal.digitsText digits := by
  induction s with
  | nil => exact ⟨[], rfl⟩
  | cons c s ih =>
    by_cases point : c = '.'
    · simp [validFrom, point] at valid
    · by_cases isDigit : c.isDigit = true
      · obtain ⟨digit, rfl⟩ := exists_digit isDigit
        obtain ⟨digits, rfl⟩ := ih (by simpa [validFrom] using valid)
        exact ⟨digit :: digits, rfl⟩
      · simp [validFrom, isDigit] at valid

theorem exists_body (valid : validFrom false s = true) :
    ∃ whole fraction, s = Literal.digitsText whole ++ Literal.fractionText fraction := by
  induction s with
  | nil => exact ⟨[], none, rfl⟩
  | cons c s ih =>
    by_cases point : c = '.'
    · subst point
      obtain ⟨digits, rfl⟩ := exists_digits (by simpa [validFrom] using valid)
      exact ⟨[], some digits, rfl⟩
    · by_cases isDigit : c.isDigit = true
      · obtain ⟨digit, rfl⟩ := exists_digit isDigit
        obtain ⟨whole, fraction, rfl⟩ := ih (by simpa [validFrom] using valid)
        exact ⟨digit :: whole, fraction, rfl⟩
      · simp [validFrom, point, isDigit] at valid

theorem exists_sign (str : List Char) :
    ∃ sign, str = Literal.signText sign ++ unsignedText str := by
  unfold unsignedText
  split
  · exact ⟨some true, rfl⟩
  · exact ⟨some false, rfl⟩
  · exact ⟨none, rfl⟩

/-- What is accepted is a special name or a number without an exponent. -/
theorem isValid_iff (str : List Char) :
    isValid str = true ↔
      str ≠ [] ∧ (isInf (unsignedText str) = true ∨ isNan (unsignedText str) = true ∨
        ∃ literal : Literal, literal.exponent = none ∧ literal.text = str) := by
  unfold isValid
  by_cases empty : str = []
  · simp [empty]
  rw [if_neg empty]
  by_cases special : isInf (unsignedText str) = true ∨ isNan (unsignedText str) = true
  · have accepted : (isInf (unsignedText str) || isNan (unsignedText str)) = true := by
      simpa using special
    simp only [accepted, if_true, true_iff]
    exact ⟨empty, special.elim .inl fun nan => .inr (.inl nan)⟩
  · have number : (isInf (unsignedText str) || isNan (unsignedText str)) = false := by
      simpa using special
    simp only [number]
    constructor
    · intro valid
      obtain ⟨whole, fraction, body⟩ := exists_body valid
      obtain ⟨sign, signed⟩ := exists_sign str
      refine ⟨empty, .inr (.inr ⟨⟨sign, whole, fraction, none⟩, rfl, ?_⟩)⟩
      rw [signed, body]
      simp [Literal.text, Literal.exponentText]
    · intro accepted
      obtain ⟨-, inf | nan | ⟨literal, plain, rfl⟩⟩ := accepted
      · exact absurd (.inl inf) special
      · exact absurd (.inr nan) special
      · rw [Literal.unsignedText_text plain, Literal.body, validFrom_digits]
        cases literal.fraction with
        | none => rfl
        | some digits =>
          have rest := validFrom_digits true digits []
          simpa [Literal.fractionText, validFrom] using rest

namespace Literal

def kept (literal : Literal) (scale : Nat) : Nat :=
  horner 0 ((literal.whole ++ literal.fractionDigits.take scale).map Fin.val) *
    10 ^ (scale - literal.fractionDigits.length)

def rounded (literal : Literal) (scale : Nat) : Nat :=
  literal.kept scale +
    (decide (RoundsUp (literal.kept scale) (literal.fractionDigits.drop scale))).toNat

theorem kept_of_beyond (literal : Literal) (scale : Nat)
    (beyond : literal.fractionDigits.drop scale ≠ []) :
    literal.kept scale =
      horner 0 ((literal.whole ++ literal.fractionDigits.take scale).map Fin.val) := by
  have longer : scale < literal.fractionDigits.length := by
    simpa using beyond
  rw [kept, Nat.sub_eq_zero_of_le longer.le, Nat.pow_zero, Nat.mul_one]

theorem kept_lt (literal : Literal) (scale : Nat)
    (fits : horner 0 (literal.whole.map Fin.val) < 10 ^ room) :
    literal.kept scale < 10 ^ (room + scale) := by
  have digits := horner_lt (@vals_lt (literal.fractionDigits.take scale)) fits
  rw [length_map, length_take] at digits
  have split : room + scale = room + min scale literal.fractionDigits.length +
      (scale - literal.fractionDigits.length) := by omega
  rw [kept, map_append, horner_append, split, Nat.pow_add]
  exact Nat.mul_lt_mul_of_pos_right digits (Nat.pow_pos (by omega))

theorem le_kept (literal : Literal) (scale : Nat)
    (overflows : 10 ^ room ≤ horner 0 (literal.whole.map Fin.val)) :
    10 ^ (room + scale) ≤ literal.kept scale := by
  have digits : 10 ^ (room + min scale literal.fractionDigits.length) ≤
      horner (horner 0 (literal.whole.map Fin.val))
        ((literal.fractionDigits.take scale).map Fin.val) := by
    rw [horner_eq, length_map, length_take, Nat.pow_add]
    exact Nat.le_add_right_of_le (Nat.mul_le_mul_right _ overflows)
  have split : room + scale = room + min scale literal.fractionDigits.length +
      (scale - literal.fractionDigits.length) := by omega
  rw [kept, map_append, horner_append, split, Nat.pow_add]
  exact Nat.mul_le_mul_right _ digits

theorem kept_beyond (literal : Literal) (scale : Nat) :
    literal.kept scale * 10 ^ (literal.fractionDigits.drop scale).length +
      horner 0 ((literal.fractionDigits.drop scale).map Fin.val) =
      horner 0 literal.digits * 10 ^ (scale - literal.fractionDigits.length) := by
  by_cases longer : scale < literal.fractionDigits.length
  · have together : literal.digits =
        (literal.whole ++ literal.fractionDigits.take scale).map Fin.val ++
          (literal.fractionDigits.drop scale).map Fin.val := by
      rw [digits, ← map_append, append_assoc, take_append_drop]
    rw [literal.kept_of_beyond scale (by simpa using longer),
      Nat.sub_eq_zero_of_le longer.le, Nat.pow_zero, Nat.mul_one, together,
      horner_append]
    conv =>
      rhs
      rw [horner_eq, length_map]
  · have all : literal.fractionDigits.drop scale = [] := by
      simpa using longer
    rw [all, kept, digits, take_of_length_le (by omega)]
    simp

theorem nearestEven_rounded (literal : Literal) (scale : Nat) (plain : literal.exponent = none) :
    NearestEven (literal.magnitude * 10 ^ scale) (literal.rounded scale) := by
  have below := horner_zero_lt (@vals_lt (literal.fractionDigits.drop scale))
  rw [length_map] at below
  have rounds := @nearestEven_div (literal.kept scale)
    (horner 0 ((literal.fractionDigits.drop scale).map Fin.val))
    (10 ^ (literal.fractionDigits.drop scale).length) (Nat.pow_pos (by omega))
    (decide (RoundsUp (literal.kept scale) (literal.fractionDigits.drop scale))) below
    (by rw [decide_eq_true_eq, RoundsUp])
  rw [literal.kept_beyond scale, length_drop] at rounds
  have powers : (10 : ℚ) ^ scale * 10 ^ (literal.fractionDigits.length - scale) =
      10 ^ (scale - literal.fractionDigits.length) * 10 ^ literal.fractionDigits.length := by
    rw [← pow_add, ← pow_add]
    congr 1
    omega
  have same : literal.magnitude * 10 ^ scale =
      ((horner 0 literal.digits * 10 ^ (scale - literal.fractionDigits.length) : Nat) : ℚ) /
        ((10 ^ (literal.fractionDigits.length - scale) : Nat) : ℚ) := by
    simp only [magnitude, exponentValue, plain, zpow_zero, mul_one, Nat.cast_mul, Nat.cast_pow,
      Nat.cast_ofNat]
    rw [div_mul_eq_mul_div, div_eq_div_iff (by positivity) (by positivity), mul_assoc, powers,
      mul_assoc]
  rw [same]
  exact rounds

end Literal

theorem scan_body (literal : Literal) (within : room + scale ≤ 35) :
    (horner 0 (literal.whole.map Fin.val) < 10 ^ room ∧
      scan literal.body false 0 room scale =
        .stopped (horner 0 ((literal.whole ++ literal.fractionDigits.take scale).map Fin.val))
          (scale - literal.fractionDigits.length)
          (Literal.digitsText (literal.fractionDigits.drop scale))) ∨
    (10 ^ room ≤ horner 0 (literal.whole.map Fin.val) ∧
      scan literal.body false 0 room scale = .overflowed) := by
  have whole := scan_whole literal.whole (Literal.fractionText literal.fraction) scale
    (show room ≤ 35 by omega) (.start room)
  rcases whole with ⟨left, counted, continues⟩ | ⟨overflows, stops⟩
  · left
    refine ⟨counted.lt, ?_⟩
    rw [Literal.body, continues, map_append, horner_append]
    cases point : literal.fraction with
    | none => simp [Literal.fractionText, scan, Literal.fractionDigits, point, Literal.digitsText]
    | some digits =>
      have fraction := scan_fraction digits left counted.lt within
      simp only [Literal.fractionText, scan, Literal.fractionDigits, point]
      simpa using fraction
  · exact .inr ⟨overflows, stops⟩

/-- The magnitude that is returned: the rounded number, or infinity from ten to the precision. -/
def Literal.returned (literal : Literal) (precision scale : Nat) : Int :=
  if literal.rounded scale < 10 ^ precision then literal.rounded scale else inf

theorem fromString_literal (literal : Literal) {precision : Nat} (plain : literal.exponent = none)
    (written : literal.text ≠ []) (within : precision ≤ 35) (fits : scale ≤ precision) :
    fromString literal.text precision scale =
      if literal.negative then -literal.returned precision scale
      else literal.returned precision scale := by
  have special := literal.body_not_special
  have total : precision - scale + scale = precision := by omega
  have limit : 10 ^ precision ≤ 10 ^ 35 := Nat.pow_le_pow_right (by omega) within
  rw [fromString, if_neg (by omega), if_neg written, Literal.head_text plain,
    Literal.unsignedText_text plain]
  simp only [special.1, special.2, Bool.false_eq_true, if_false]
  rcases scan_body literal (show precision - scale + scale ≤ 35 by omega) with
    ⟨small, stops⟩ | ⟨overflows, stops⟩
  · have below := literal.kept_lt scale small
    rw [total] at below
    rw [stops]
    cases beyond : literal.fractionDigits.drop scale with
    | nil =>
      have exact : literal.rounded scale = literal.kept scale := by
        rw [Literal.rounded, beyond, decide_eq_false (not_roundsUp_nil _)]
        rfl
      change signed literal.negative (scaleUp _ _) = _
      rw [scaleUp_eq (below.trans_le (by omega)), ← Literal.kept,
        signed_eq _ (by omega), Literal.returned, exact, if_pos below]
    | cons digit digits =>
      have kept := literal.kept_of_beyond scale (by simp [beyond])
      have shorter : scale - literal.fractionDigits.length = 0 := by
        have longer : literal.fractionDigits.drop scale ≠ [] := by simp [beyond]
        have : scale < literal.fractionDigits.length := by simpa using longer
        omega
      rw [← kept, shorter]
      have text : Literal.digitsText (digit :: digits) =
          digitChar digit :: Literal.digitsText digits := rfl
      simp only [text, roundsUp_eq, Literal.returned, Literal.rounded, beyond]
      cases decide (RoundsUp (literal.kept scale) (digit :: digits)) with
      | false =>
        change signed literal.negative (literal.kept scale) = _
        rw [signed_eq _ (by omega), Bool.toNat_false, Nat.add_zero, if_pos below]
      | true =>
        change signed literal.negative (if getDivider precision ≤
          unsigned (literal.kept scale + 1) then inf.toNat
          else unsigned (literal.kept scale + 1)) = _
        rw [getDivider_eq within, unsigned_of_lt (by omega), Bool.toNat_true]
        by_cases carries : 10 ^ precision ≤ literal.kept scale + 1
        · have large : ¬ literal.kept scale + 1 < 10 ^ precision := Nat.not_lt.mpr carries
          rw [if_pos carries, if_neg large, signed_eq _ (by decide)]
          rfl
        · rw [if_neg carries, if_pos (Nat.not_le.mp carries), signed_eq _ (by omega)]
  · have above := literal.le_kept scale overflows
    rw [total] at above
    have large : ¬ literal.rounded scale < 10 ^ precision := by
      rw [Literal.rounded]
      omega
    rw [stops, Literal.returned, if_neg large]

/-- The text is parsed exactly: to the nearest integer of the number times ten to the scale while
that is below ten to the precision, and to infinity from there on. -/
def ParsedExactly (literal : Literal) (precision scale : Nat) : Prop :=
  ∃ rounded, NearestEven (literal.number * 10 ^ scale) rounded ∧
    (|rounded| < 10 ^ precision → fromString literal.text precision scale = rounded) ∧
    (fromString literal.text precision scale = (if literal.negative then -inf else inf) ↔
      10 ^ precision ≤ |rounded|)

theorem Literal.returned_eq_inf_iff (literal : Literal) (scale : Nat)
    (within : precision ≤ 35) :
    literal.returned precision scale = inf ↔ (10 : ℤ) ^ precision ≤ literal.rounded scale := by
  have limit : 10 ^ precision ≤ 10 ^ 35 := Nat.pow_le_pow_right (by omega) within
  have size : (10 : ℤ) ^ precision ≤ (literal.rounded scale : ℤ) ↔
      10 ^ precision ≤ literal.rounded scale := by
    exact_mod_cast Iff.rfl
  have infinity : inf = ((10 ^ 35 : Nat) : ℤ) := by decide
  rw [size, Literal.returned]
  split
  case isTrue small => omega
  case isFalse large => simp [Nat.not_lt.mp large]

theorem fromString_exact (literal : Literal) (precision scale : Nat)
    (plain : literal.exponent = none) (written : literal.text ≠ [])
    (within : precision ≤ 35) (fits : scale ≤ precision) :
    ParsedExactly literal precision scale := by
  have nearest := literal.nearestEven_rounded scale plain
  have parsed := fromString_literal literal plain written within fits
  have infinite := literal.returned_eq_inf_iff scale within
  have finite : ((literal.rounded scale : Nat) : ℤ) < 10 ^ precision →
      literal.returned precision scale = literal.rounded scale := by
    intro small
    exact if_pos (by exact_mod_cast small)
  rw [ParsedExactly, Literal.number, parsed]
  cases literal.negative with
  | true =>
    refine ⟨-(literal.rounded scale : ℤ), ?_, ?_, ?_⟩
    · rw [if_pos rfl, neg_mul]
      exact nearest.neg
    · rw [abs_neg, Nat.abs_cast, if_pos rfl]
      intro small
      rw [finite small]
    · rw [abs_neg, Nat.abs_cast, if_pos rfl, if_pos rfl, neg_inj]
      exact infinite
  | false =>
    refine ⟨literal.rounded scale, nearest, ?_, ?_⟩
    · rw [Nat.abs_cast]
      exact finite
    · rw [Nat.abs_cast]
      exact infinite

/-- `-99.995` has more digits than fit; the last one rounds the number out of the precision. -/
theorem fromString_exact_carry :
    ParsedExactly ⟨some true, [9, 9], some [9, 9, 5], none⟩ 4 2 :=
  fromString_exact _ 4 2 rfl (by decide) (by decide) (by decide)

/-- An exponent is not part of the format: `1e2` is an error although the number fits. -/
theorem fromString_exponent :
    ¬ ∀ literal precision scale, literal.text ≠ [] → 1 ≤ precision →
      precision ≤ 35 → scale ≤ precision → ParsedExactly literal precision scale := by
  intro exact
  obtain ⟨rounded, nearest, finite, -⟩ :=
    exact ⟨none, [1], none, some (false, [2])⟩ 5 2 (by decide) (by decide) (by decide) (by decide)
  have number : Literal.number ⟨none, [1], none, some (false, [2])⟩ * 10 ^ 2 = ((10000 : ℤ) : ℚ) := by
    norm_num [Literal.number, Literal.negative, Literal.magnitude, Literal.digits,
      Literal.fractionDigits, Literal.exponentValue]
  rw [number] at nearest
  obtain rfl := nearest.unique (nearestEven_int 10000)
  exact absurd (finite (by norm_num)) (by decide +kernel)

end YdbSdk.Decimal
