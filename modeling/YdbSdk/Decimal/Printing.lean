import YdbSdk.Decimal.Parsing

namespace YdbSdk.Decimal

open Data List

/-! # What is printed is parsed back

Printing runs over the digits from the last one and leaves out the zeros at the end of the
fraction.  What it leaves is the text of a number with at most as many digits after the point as
the scale, so that parsing rounds nothing. -/

variable {scale precision value : Nat} {s : List Char}

/-- The text is a number without a sign whose value at the scale is given. -/
def Writes (s : List Char) (scale value : Nat) : Prop :=
  ∃ whole fraction, s = Literal.digitsText whole ++ Literal.fractionText fraction ∧
    (fraction.getD []).length ≤ scale ∧
    horner 0 ((whole ++ fraction.getD []).map Fin.val) *
      10 ^ (scale - (fraction.getD []).length) = value

theorem horner_zeros (count : Nat) (digits : List Nat) :
    horner 0 (.replicate count 0 ++ digits) = horner 0 digits := by
  have zeros : horner 0 (.replicate count 0) = 0 :=
    horner_zero_eq_zero.mpr fun digit member => eq_of_mem_replicate member
  rw [horner_append, zeros]

def lastDigit (v : Nat) : Fin 10 := ⟨v % 10, Nat.mod_lt _ (by omega)⟩

theorem printDigits_whole (s : List Char) (some : 0 < precision)
    (fits : v < 10 ^ precision) :
    ∃ left digits, printDigits precision v 0 s = .done left 0 (Literal.digitsText digits ++ s) ∧
      horner 0 (digits.map Fin.val) = v := by
  induction precision generalizing v s with
  | zero => omega
  | succ precision ih =>
    have digit : digitChar (v % 10) = digitChar (lastDigit v) := rfl
    by_cases more : v / 10 = 0
    · refine ⟨precision, [lastDigit v], ?_, ?_⟩
      · simp [printDigits, more, digit, Literal.digitsText]
      · simp [lastDigit]
        omega
    · have rest : v / 10 < 10 ^ precision := by
        omega
      have left : 0 < precision := by
        cases precision with
        | zero => omega
        | succ precision => omega
      obtain ⟨after, digits, printed, value⟩ := ih (digitChar (v % 10) :: s) left rest
      refine ⟨after, digits ++ [lastDigit v], ?_, ?_⟩
      · simpa [printDigits, more, digit, Literal.digitsText] using printed
      · rw [map_append, horner_append]
        simp [lastDigit]
        omega

def nextDigits (v : Nat) (digits : List (Fin 10)) : List (Fin 10) :=
  if v % 10 ≠ 0 ∨ digits ≠ [] then lastDigit v :: digits else digits

def pointed (digits : List (Fin 10)) : Option (List (Fin 10)) :=
  if digits = [] then none else some digits

@[simp] theorem pointed_getD (digits : List (Fin 10)) : (pointed digits).getD [] = digits := by
  unfold pointed
  split
  case isTrue empty => simp [empty]
  case isFalse => rfl

theorem nextDigits_length {v passed : Nat} {digits : List (Fin 10)}
    (short : digits.length ≤ passed) : (nextDigits v digits).length ≤ passed + 1 := by
  unfold nextDigits
  split
  case isTrue => simpa using short
  case isFalse => omega

theorem nextDigits_value (v : Nat)
    (short : digits.length ≤ passed) :
    v / 10 * 10 ^ (passed + 1) + horner 0 ((nextDigits v digits).map Fin.val) *
          10 ^ (passed + 1 - (nextDigits v digits).length) =
      v * 10 ^ passed + horner 0 (digits.map Fin.val) * 10 ^ (passed - digits.length) := by
  have split : v * 10 ^ passed = v / 10 * 10 ^ (passed + 1) + v % 10 * 10 ^ passed := by
    conv =>
      lhs
      rw [← Nat.div_add_mod v 10]
    ring
  rw [split, Nat.add_assoc]
  unfold nextDigits
  split
  case isTrue =>
      have power : 10 ^ digits.length * 10 ^ (passed - digits.length) = 10 ^ passed :=
        pow_mul_pow_sub 10 short
      have last : (lastDigit v).val = v % 10 := rfl
      rw [map_cons, horner_cons, horner_eq, length_map, length_cons,
        Nat.add_sub_add_right, Nat.add_mul, Nat.mul_assoc, power, last, Nat.zero_add]
  case isFalse none =>
      obtain ⟨zero, empty⟩ : v % 10 = 0 ∧ digits = [] := by simpa using none
      subst empty
      simp [zero]

theorem digitsText_eq_nil (digits : List (Fin 10)) :
    Literal.digitsText digits = [] ↔ digits = [] := by
  simp [Literal.digitsText]

theorem fractionText_pointed (digits : List (Fin 10)) :
    Literal.fractionText (pointed digits) =
      if Literal.digitsText digits ≠ [] then '.' :: Literal.digitsText digits
      else Literal.digitsText digits := by
  cases digits with
  | nil => rfl
  | cons digit digits => rfl

theorem printDigits_succ (precision v scale : Nat) (digits : List (Fin 10)) (missing : 0 < scale) :
    printDigits (precision + 1) v scale (Literal.digitsText digits) =
      let s := if scale = 1 then Literal.fractionText (pointed (nextDigits v digits))
        else Literal.digitsText (nextDigits v digits)
      if v / 10 ≠ 0 then printDigits precision (v / 10) (scale - 1) s
      else .done precision (scale - 1) s := by
  have pushed : (if v % 10 ≠ 0 ∨ scale = 0 ∨ Literal.digitsText digits ≠ [] then
      digitChar (v % 10) :: Literal.digitsText digits else Literal.digitsText digits) =
      Literal.digitsText (nextDigits v digits) := by
    rw [nextDigits]
    simp only [Nat.ne_of_gt missing, false_or, ne_eq, digitsText_eq_nil]
    split
    case isTrue => rfl
    case isFalse => rfl
  have point : (if scale = 1 ∧ Literal.digitsText (nextDigits v digits) ≠ [] then
      '.' :: Literal.digitsText (nextDigits v digits)
      else Literal.digitsText (nextDigits v digits)) =
      if scale = 1 then Literal.fractionText (pointed (nextDigits v digits))
      else Literal.digitsText (nextDigits v digits) := by
    rw [fractionText_pointed, ite_and]
  simp only [printDigits]
  rw [pushed, point]

/-- What the loop over the digits leaves when it started with some digits of the fraction
written: either the point was reached, or zeros are still missing before the first digit. -/
theorem printDigits_fraction {precision v scale value : Nat} (digits : List (Fin 10))
    {passed : Nat} (short : digits.length ≤ passed) (fits : v < 10 ^ precision)
    (missing : 0 < scale) (room : scale ≤ precision) (total : v * 10 ^ passed +
      horner 0 (digits.map Fin.val) * 10 ^ (passed - digits.length) = value) :
    ∃ left scaleLeft s, printDigits precision v scale (Literal.digitsText digits) =
        .done left scaleLeft s ∧
      ((scaleLeft = 0 ∧ Writes s (passed + scale) value) ∨
       (0 < scaleLeft ∧ scaleLeft ≤ left ∧ scaleLeft ≤ scale ∧
        ∃ written, s = Literal.digitsText written ∧
          written.length ≤ passed + scale - scaleLeft ∧
          horner 0 (written.map Fin.val) *
            10 ^ (passed + scale - scaleLeft - written.length) = value)) := by
  induction precision generalizing v scale digits passed with
  | zero => omega
  | succ precision ih =>
    have next := nextDigits_value v short
    have nextShort := @nextDigits_length v passed digits short
    have rest : v / 10 < 10 ^ precision := by
      rw [Nat.pow_succ] at fits
      omega
    rw [total] at next
    rw [printDigits_succ precision v scale digits missing]
    obtain rfl | ⟨scale, rfl⟩ : scale = 1 ∨ ∃ less, scale = less + 2 := by
      rcases scale with _ | _ | scale
      · omega
      · exact .inl rfl
      · exact .inr ⟨scale, rfl⟩
    · -- the point is reached
      by_cases more : v / 10 = 0
      · rw [more] at next
        refine ⟨precision, 0, Literal.fractionText (pointed (nextDigits v digits)),
          by simp [more], .inl ⟨rfl, [], pointed (nextDigits v digits), rfl, ?_, ?_⟩⟩
        · simpa using nextShort
        · simpa using next
      · have some : 0 < precision := by
          cases precision with
          | zero => omega
          | succ precision => omega
        obtain ⟨left, whole, printed, wholeValue⟩ := printDigits_whole
          (Literal.fractionText (pointed (nextDigits v digits))) some rest
        refine ⟨left, 0, _, by simpa [more] using printed,
          .inl ⟨rfl, whole, pointed (nextDigits v digits), rfl, ?_, ?_⟩⟩
        · simpa using nextShort
        · have power : 10 ^ (nextDigits v digits).length *
              10 ^ (passed + 1 - (nextDigits v digits).length) = 10 ^ (passed + 1) :=
            pow_mul_pow_sub 10 nextShort
          rw [pointed_getD, map_append, horner_append, wholeValue, horner_eq,
            length_map, Nat.add_mul, Nat.mul_assoc, power]
          exact next
    · by_cases more : v / 10 = 0
      · -- zeros are missing before the first digit
        rw [more] at next
        refine ⟨precision, scale + 1, _, by simp [more], .inr ⟨by omega, by omega, by omega,
          nextDigits v digits, rfl, ?_, ?_⟩⟩
        · omega
        · have same : passed + (scale + 2) - (scale + 1) = passed + 1 := by omega
          rw [same]
          simpa using next
      · obtain ⟨left, scaleLeft, s, printed, outcome⟩ :=
          ih (nextDigits v digits) nextShort rest (show 0 < scale + 1 by omega)
            (by omega) next
        have same : passed + 1 + (scale + 1) = passed + (scale + 2) := by omega
        rw [same] at outcome
        refine ⟨left, scaleLeft, s, by simpa [more] using printed, ?_⟩
        rcases outcome with reached | ⟨positive, enough, less, written⟩
        · exact .inl reached
        · exact .inr ⟨positive, enough, by omega, written⟩

theorem printZeros_eq (digits : List (Fin 10)) (enough : scale ≤ precision) :
    printZeros precision scale (Literal.digitsText digits) =
      .done (precision - scale) 0 (Literal.digitsText (.replicate scale 0 ++ digits)) := by
  induction scale generalizing precision digits with
  | zero => cases precision <;> rfl
  | succ scale ih =>
    cases precision with
    | zero => omega
    | succ precision =>
      have rest := ih (0 :: digits) (show scale ≤ precision by omega)
      rw [Nat.add_sub_add_right, replicate_succ', append_assoc]
      exact rest

theorem Writes.leadingZero (writes : Writes s scale value) : Writes ('0' :: s) scale value := by
  obtain ⟨whole, fraction, rfl, short, same⟩ := writes
  exact ⟨0 :: whole, fraction, rfl, short, same⟩

theorem Writes.afterZeros (less : zeros ≤ scale)
    (short : written.length ≤ scale - zeros)
    (same : horner 0 (written.map Fin.val) * 10 ^ (scale - zeros - written.length) = value) :
    Writes ('.' :: Literal.digitsText (.replicate zeros 0 ++ written)) scale value := by
  refine ⟨[], some (.replicate zeros 0 ++ written), rfl, ?_, ?_⟩
  · rw [Option.getD_some, length_append, length_replicate]
    omega
  · have length : scale - (zeros + written.length) = scale - zeros - written.length := by omega
    rw [Option.getD_some, nil_append, map_append, map_replicate,
      length_append, length_replicate, length]
    exact (congrArg (· * _) (horner_zeros zeros _)).trans same

theorem print_writes (positive : 0 < precision) (small : v < 10 ^ precision)
    (fits : scale ≤ precision) :
    ∃ left scaleLeft s, printDigits precision v scale [] = .done left scaleLeft s ∧
      ((scaleLeft = 0 ∧ Writes s scale v) ∨
       (scaleLeft ≠ 0 ∧ ∃ after digits, printZeros left scaleLeft s = .done after 0 digits ∧
         Writes ('.' :: digits) scale v)) := by
  by_cases integer : scale = 0
  · subst integer
    obtain ⟨left, digits, printed, value⟩ := printDigits_whole [] positive small
    refine ⟨left, 0, _, printed, .inl ⟨rfl, digits, none, rfl, by simp, ?_⟩⟩
    simpa using value
  · obtain ⟨left, scaleLeft, s, printed, outcome⟩ := @printDigits_fraction precision v scale v
      [] 0 (by simp) small (by omega) fits (by simp)
    rw [Nat.zero_add] at outcome
    refine ⟨left, scaleLeft, s, printed, ?_⟩
    rcases outcome with reached | ⟨missing, enough, less, written, rfl, short, same⟩
    · exact .inl reached
    · exact .inr ⟨by omega, _, _, printZeros_eq written enough, .afterZeros less short same⟩

theorem toString_writes (nonzero : val ≠ 0) (positive : 1 ≤ precision)
    (within : precision ≤ 35) (fits : scale ≤ precision) (small : val.natAbs < 10 ^ precision) :
    ∃ s, Writes s scale val.natAbs ∧
      toString val precision scale = some (if val < 0 then '-' :: s else s) := by
  have limit : 10 ^ precision ≤ 10 ^ 35 := Nat.pow_le_pow_right (by omega) within
  have infinity : inf = ((10 ^ 35 : Nat) : ℤ) := by decide
  have valid : ¬ (precision = 0 ∨ maxPrecision < precision ∨ precision < scale) := by
    rw [maxPrecision]
    omega
  have normal : isNormal val = true := by
    rw [isNormal]
    simp only [Bool.and_eq_true, decide_eq_true_eq]
    omega
  have notNan : val ≠ nan := by
    rw [nan]
    omega
  rw [toString, if_neg valid, if_neg (by omega), if_neg (by omega), if_neg notNan,
    if_neg (by simp [normal]), if_neg nonzero]
  obtain ⟨left, scaleLeft, s, printed, outcome⟩ := print_writes positive small fits
  have zeroBefore : ∀ {s : List Char}, Writes s scale val.natAbs →
      Writes (if s.head? = some '.' then '0' :: s else s) scale val.natAbs := by
    intro s writes
    split
    case isTrue => exact writes.leadingZero
    case isFalse => exact writes
  simp only [printed]
  rcases outcome with ⟨rfl, writes⟩ | ⟨missing, after, digits, zeros, writes⟩
  · refine ⟨_, zeroBefore writes, ?_⟩
    simp
  · refine ⟨_, zeroBefore writes, ?_⟩
    simp [missing, zeros]

theorem Literal.rounded_of_short (literal : Literal)
    (short : literal.fractionDigits.length ≤ scale) :
    literal.rounded scale =
      horner 0 literal.digits * 10 ^ (scale - literal.fractionDigits.length) := by
  rw [Literal.rounded, drop_of_length_le short, Literal.kept, take_of_length_le short]
  rfl

theorem fromString_writes (writes : Writes s scale value) (nonempty : s ≠ []) (neg : Bool)
    (within : precision ≤ 35) (fits : scale ≤ precision) (small : value < 10 ^ precision) :
    fromString (if neg then '-' :: s else s) precision scale =
      if neg then -(value : Int) else value := by
  obtain ⟨whole, fraction, written, short, same⟩ := writes
  have text : Literal.text ⟨if neg then some true else none, whole, fraction, none⟩ =
      if neg then '-' :: s else s := by
    cases neg <;> simp [Literal.text, Literal.signText, Literal.exponentText, written]
  have negative : Literal.negative ⟨if neg then some true else none, whole, fraction, none⟩ =
      neg := by
    cases neg <;> rfl
  have value : Literal.rounded ⟨if neg then some true else none, whole, fraction, none⟩ scale =
      value :=
    (Literal.rounded_of_short _ short).trans same
  rw [← text, fromString_literal _ rfl (by rw [text]; split <;> simp [nonempty]) within fits,
    negative, Literal.returned, value, if_pos small]

theorem Writes.nonempty (writes : Writes s scale value) (nonzero : value ≠ 0) : s ≠ [] := by
  intro empty
  obtain ⟨whole, fraction, written, -, same⟩ := writes
  rw [empty] at written
  cases whole with
  | cons digit whole => simp [Literal.digitsText] at written
  | nil =>
    cases fraction with
    | some digits => simp [Literal.fractionText] at written
    | none => exact nonzero (by simp [← same])

/-- Printing and parsing with the same precision and scale give back every number that fits, both
infinities and what is not a number. -/
theorem fromString_toString (val : Int) (precision scale : Nat) (positive : 1 ≤ precision)
    (within : precision ≤ 35) (fits : scale ≤ precision)
    (value : |val| < 10 ^ precision ∨ val = inf ∨ val = -inf ∨ val = nan) :
    ∃ text, toString val precision scale = some text ∧
      fromString text precision scale = val := by
  have valid : ¬ (precision = 0 ∨ maxPrecision < precision ∨ precision < scale) := by
    rw [maxPrecision]
    omega
  have scaled : ¬ precision < scale := by omega
  rcases value with small | rfl | rfl | rfl
  · have bounded : val.natAbs < 10 ^ precision := by
      rw [Int.abs_eq_natAbs] at small
      exact_mod_cast small
    by_cases zero : val = 0
    · subst zero
      have writes : Writes ['0'] scale 0 := ⟨[0], none, rfl, by simp, by simp⟩
      refine ⟨['0'], ?_, fromString_writes writes (by simp) false within fits bounded⟩
      rw [toString, if_neg valid]
      rfl
    · obtain ⟨s, writes, printed⟩ := toString_writes zero positive within fits bounded
      have parsed := fromString_writes writes (writes.nonempty (by omega)) (decide (val < 0))
        within fits bounded
      simp only [decide_eq_true_eq] at parsed
      refine ⟨_, printed, parsed.trans ?_⟩
      split
      case isTrue negative => omega
      case isFalse positive => omega
  · exact ⟨['i', 'n', 'f'], by rw [toString, if_neg valid, if_pos rfl],
      by simp [fromString, scaled, unsignedText, isInf]⟩
  · exact ⟨['-', 'i', 'n', 'f'], by rw [toString, if_neg valid, if_neg (by decide), if_pos rfl],
      by simp [fromString, scaled, unsignedText, isInf]⟩
  · exact ⟨['n', 'a', 'n'], by
      rw [toString, if_neg valid, if_neg (by decide), if_neg (by decide), if_pos rfl],
      by simp [fromString, scaled, unsignedText, isInf, isNan]⟩

/-- `-0.012` is printed with a zero before the point and without the zeros at its end. -/
theorem fromString_toString_fraction :
    toString (-1200) 10 5 = some "-0.012".toList ∧
      ∃ text, toString (-1200) 10 5 = some text ∧ fromString text 10 5 = -1200 :=
  ⟨by decide +kernel, fromString_toString (-1200) 10 5 (by decide) (by decide) (by decide)
    (.inl (by decide))⟩

/-- The text so far, a digit for each unit of precision left and the point that is missing. -/
def Printed.Fits (room : Nat) : Printed → Prop
  | .done precision scale s => s.length + precision + min 1 scale ≤ room
  | .early text => text.getD [] = []

theorem printDigits_fits (enough : s.length + precision + min 1 scale ≤ room) :
    (printDigits precision v scale s).Fits room := by
  fun_induction printDigits precision v scale s with grind [Printed.Fits]

theorem printZeros_fits (enough : s.length + precision ≤ room) :
    (printZeros precision scale s).Fits room := by
  fun_induction printZeros precision scale s with grind [Printed.Fits]

/-- With the zero byte at its end the text fits into the buffer of 40 bytes. -/
theorem toString_fits_buffer (val : Int) (precision scale : Nat) :
    ((toString val precision scale).getD []).length ≤ min precision maxPrecision + 3 := by
  unfold toString
  by_cases outside : precision = 0 ∨ maxPrecision < precision ∨ precision < scale
  · simp [outside]
  have within : min precision maxPrecision = precision :=
    min_eq_left (Nat.not_lt.mp fun more => outside (.inr (.inl more)))
  have digits : (printDigits precision val.natAbs scale []).Fits (precision + 1) :=
    printDigits_fits (by simp)
  rw [if_neg outside, within]
  repeat (split; · grind)
  cases printed : printDigits precision val.natAbs scale [] with
  | early text => grind [Printed.Fits]
  | done left scaleLeft s =>
    simp only [printed, Printed.Fits] at digits
    cases scaleLeft with
    | zero => grind
    | succ missing =>
      have zeros : (printZeros left (missing + 1) s).Fits precision := printZeros_fits (by grind)
      cases filled : printZeros left (missing + 1) s <;> grind [Printed.Fits]

end YdbSdk.Decimal
