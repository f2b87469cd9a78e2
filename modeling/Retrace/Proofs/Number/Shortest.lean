import Mathlib.Data.Nat.Cast.Order.Field
import Retrace.Proofs.Number.Digits
import Retrace.Proofs.Number.Rounding

/-!
# Shortest decimals read back

A decimal in the interval of a number is read as that number. The shortest decimal of a number lies
in its interval: the grid of seventeen digits is finer than the interval is wide, so the search ends
on some grid, and whatever it finds was checked against the interval.
-/

namespace Retrace.Number.Binary64

/-- The value of a decimal. -/
def Decimal.value (decimal : Decimal) : ℚ :=
  decimal.digits * 10 ^ decimal.exponent

/-- A positive number lies between the powers of ten that its digits count. -/
theorem digits_bounds {number : Nat} (positive : 0 < number) :
    (10 : ℚ) ^ (((Nat.toDigits 10 number).length : Int) - 1) ≤ number ∧
      (number : ℚ) < 10 ^ ((Nat.toDigits 10 number).length : Int) := by
  have some : 0 < (Nat.toDigits 10 number).length := Nat.length_toDigits_pos
  have upper := (Nat.length_toDigits_le_iff (n := number) (b := 10) (by decide) some).1 le_rfl
  have lower : 10 ^ ((Nat.toDigits 10 number).length - 1) ≤ number := by
    by_contra less
    rcases Nat.eq_zero_or_pos ((Nat.toDigits 10 number).length - 1) with one | more
    · rw [one] at less
      omega
    · have shorter := (Nat.length_toDigits_le_iff (b := 10) (by decide) more).2 (not_le.1 less)
      omega
  constructor
  · have power : ((Nat.toDigits 10 number).length : Int) - 1 =
        (((Nat.toDigits 10 number).length - 1 : Nat) : Int) := by omega
    rw [power, zpow_natCast]
    exact_mod_cast lower
  · rw [zpow_natCast]
    exact_mod_cast upper

/-- The bounds of the values that round to some number. -/
theorem RoundsTo.bounds {value : ℚ} {significand : Nat} {exponent : Int}
    (fits : Fits significand exponent) (positive : 0 < significand)
    (rounds : RoundsTo value significand exponent) :
    (2 : ℚ) ^ (-1075 : Int) ≤ value ∧ value < 2 ^ (1024 : Int) := by
  have scale : (0 : ℚ) < 2 ^ exponent := by positivity
  have one : (1 : ℚ) ≤ significand := by exact_mod_cast positive
  have least : (-1074 : Int) ≤ exponent := fits.least
  have greatest : exponent ≤ 971 := fits.greatest
  constructor
  · calc (2 : ℚ) ^ (-1075 : Int) = 1 / 2 * 2 ^ (-1074 : Int) := by
          rw [show (-1075 : Int) = -1 + -1074 by norm_num, zpow_add₀ (by norm_num)]
          norm_num
      _ ≤ 1 / 2 * 2 ^ exponent :=
          mul_le_mul_of_nonneg_left (zpow_le_zpow_right₀ (by norm_num) least) (by norm_num)
      _ ≤ value := by
          rw [← le_div_iff₀ scale]
          linarith [rounds.lower]
  · calc value < 2 ^ (53 : Int) * 2 ^ exponent := rounds.below fits
      _ = 2 ^ (53 + exponent) := (zpow_add₀ (by norm_num) _ _).symm
      _ ≤ 2 ^ (1024 : Int) := zpow_le_zpow_right₀ (by norm_num) (by omega)

/-- A positive decimal is read as the fraction that it is, unless it is out of all range. -/
theorem ofDecimal_eq_ofFraction (negative : Bool) {significand : Nat} {exponent : Int}
    (positive : 0 < significand)
    (above : -decimalRange ≤ ((Nat.toDigits 10 significand).length : Int) + exponent)
    (below : ((Nat.toDigits 10 significand).length : Int) + exponent ≤ decimalRange) :
    ∃ numerator denominator : Nat, 0 < numerator ∧ 0 < denominator ∧
      (numerator : ℚ) / denominator = significand * 10 ^ exponent ∧
      ofDecimal negative significand exponent = ofFraction negative numerator denominator := by
  unfold ofDecimal
  dsimp only
  have notZero : ¬ (decide (significand = 0) ||
      decide (((Nat.toDigits 10 significand).length : Int) + exponent < -decimalRange)) = true := by
    simp only [Bool.or_eq_true, decide_eq_true_eq, not_or]
    omega
  rw [if_neg notZero, if_neg (not_lt.2 below)]
  split
  next small =>
    refine ⟨significand, Nat.pow 10 exponent.natAbs, positive, Nat.pow_pos (by decide), ?_, rfl⟩
    rw [zpow_of_neg 10 small, Nat.pow_eq]
    push_cast
    field_simp
  next large =>
    refine ⟨significand * Nat.pow 10 exponent.natAbs, 1,
      Nat.mul_pos positive (Nat.pow_pos (by decide)), by decide, ?_, rfl⟩
    rw [zpow_of_nonneg 10 (not_lt.1 large), Nat.pow_eq]
    push_cast
    field_simp

/-- A power of ten exceeds the power of two of three times its exponent. -/
theorem two_zpow_lt_ten_zpow {binary decimal : Int} (nonnegative : 0 ≤ decimal)
    (less : binary < 3 * decimal) : (2 : ℚ) ^ binary < 10 ^ decimal := by
  calc (2 : ℚ) ^ binary < 2 ^ (3 * decimal) := zpow_lt_zpow_right₀ (by norm_num) less
    _ = (2 ^ (3 : Int)) ^ decimal := zpow_mul _ _ _
    _ ≤ 10 ^ decimal := zpow_le_zpow_left₀ nonnegative (by norm_num) (by norm_num)

/-- A decimal between the bounds of all numbers is within the range that is read exactly. -/
theorem decimalRange_of_bounds {digits : Nat} {power : Int} (positive : 0 < digits)
    (least : (2 : ℚ) ^ (-1075 : Int) ≤ digits * 10 ^ power)
    (greatest : (digits : ℚ) * 10 ^ power < 2 ^ (1024 : Int)) :
    -decimalRange ≤ ((Nat.toDigits 10 digits).length : Int) + power ∧
      ((Nat.toDigits 10 digits).length : Int) + power ≤ decimalRange := by
  have ten : (0 : ℚ) < 10 ^ power := by positivity
  obtain ⟨low, high⟩ := digits_bounds positive
  generalize ((Nat.toDigits 10 digits).length : Int) = size at low high
  simp only [decimalRange]
  constructor
  · by_contra tooSmall
    have value : (digits : ℚ) * 10 ^ power < 10 ^ (size + power) := by
      rw [zpow_add₀ (by norm_num)]
      exact mul_lt_mul_of_pos_right high ten
    have bound : (10 : ℚ) ^ (size + power) ≤ 10 ^ (-401 : Int) :=
      zpow_le_zpow_right₀ (by norm_num) (by omega)
    have apart : (10 : ℚ) ^ (-401 : Int) < 2 ^ (-1075 : Int) := by
      rw [zpow_neg, zpow_neg, inv_lt_inv₀ (by positivity) (by positivity)]
      exact two_zpow_lt_ten_zpow (by norm_num) (by norm_num)
    exact absurd (value.trans_le bound) (not_lt.2 (apart.le.trans least))
  · by_contra tooLarge
    have value : (10 : ℚ) ^ (size - 1 + power) ≤ digits * 10 ^ power := by
      rw [zpow_add₀ (by norm_num)]
      exact mul_le_mul_of_nonneg_right low ten.le
    have bound : (10 : ℚ) ^ (400 : Int) ≤ 10 ^ (size - 1 + power) :=
      zpow_le_zpow_right₀ (by norm_num) (by omega)
    have apart : (2 : ℚ) ^ (1024 : Int) < 10 ^ (400 : Int) :=
      two_zpow_lt_ten_zpow (by norm_num) (by norm_num)
    exact absurd (apart.trans_le (bound.trans value)) (not_lt.2 greatest.le)

/-- A decimal in the interval of a number is read as that number. -/
theorem ofDecimal_of_roundsTo (negative : Bool) {digits significand : Nat}
    {power exponent : Int} (positive : 0 < significand) (fits : Fits significand exponent)
    (rounds : RoundsTo (digits * 10 ^ power) significand exponent) :
    ofDecimal negative digits power = .finite negative significand exponent := by
  obtain ⟨least, greatest⟩ := rounds.bounds fits positive
  have some : 0 < digits := by
    rw [Nat.pos_iff_ne_zero]
    rintro rfl
    rw [Nat.cast_zero, zero_mul] at least
    exact absurd least (not_le.2 (by positivity))
  obtain ⟨above, below⟩ := decimalRange_of_bounds some least greatest
  obtain ⟨numerator, denominator, divided, divides, value, equal⟩ :=
    ofDecimal_eq_ofFraction negative some above below
  rw [← value] at rounds
  rw [equal]
  exact ofFraction_of_roundsTo negative divided divides fits rounds

/-- Whatever a decimal is read as has a significand and an exponent that fit. -/
theorem ofDecimal_canonical (negative : Bool) (digits : Nat) (power : Int) :
    (ofDecimal negative digits power).Canonical := by
  unfold ofDecimal
  dsimp only
  split
  · exact ⟨by decide, le_rfl, by decide, .inr rfl⟩
  next notZero =>
    have positive : 0 < digits := by
      simp only [Bool.or_eq_true, decide_eq_true_eq, not_or] at notZero
      omega
    split
    · trivial
    · split
      · exact ofFraction_canonical negative positive (Nat.pow_pos (by decide))
      · exact ofFraction_canonical negative
          (Nat.mul_pos positive (Nat.pow_pos (by decide))) (by decide)

/-- The place of the decimal point is found from below: the power of ten in front of it is not above
the fraction. -/
theorem pointOf_le {numerator denominator : Nat} (positive : 0 < numerator)
    (divides : 0 < denominator) :
    (10 : ℚ) ^ (pointOf numerator denominator - 1) ≤ (numerator : ℚ) / denominator := by
  have divisor : (0 : ℚ) < denominator := by exact_mod_cast divides
  unfold pointOf
  split
  next large =>
    have whole : 0 < numerator / denominator := Nat.div_pos large divides
    calc (10 : ℚ) ^ (((Nat.toDigits 10 (numerator / denominator)).length : Int) - 1)
        ≤ (numerator / denominator : Nat) := (digits_bounds whole).1
      _ ≤ (numerator : ℚ) / denominator := Nat.cast_div_le
  next small =>
    have inverse : 0 < (denominator - 1) / numerator := Nat.div_pos (by omega) positive
    generalize sized : (Nat.toDigits 10 ((denominator - 1) / numerator)).length = size
    have some : 0 < size := by
      rw [← sized]
      exact Nat.length_toDigits_pos
    have bound : (denominator - 1) / numerator < 10 ^ size :=
      (Nat.length_toDigits_le_iff (by decide) some).1 sized.le
    have product : denominator ≤ 10 ^ size * numerator := by
      have less := (Nat.div_lt_iff_lt_mul positive).1 bound
      omega
    have power : (1 : Int) - size - 1 = -(size : Int) := by ring
    rw [power, zpow_neg, zpow_natCast, le_div_iff₀ divisor, inv_mul_le_iff₀ (by positivity)]
    exact_mod_cast product

/-- The significand of the lower end of a number's interval. -/
def lowerEnd (significand : Nat) (exponent : Int) : ℚ :=
  if significand = Nat.pow 2 (precision - 1) && leastExponent < exponent
  then significand - 1 / 4 else significand - 1 / 2

/-- The neighbourhood of a number holds its value and the ends of its interval, over a common
denominator. -/
theorem neighbourhood_values {significand : Nat} (positive : 0 < significand) (exponent : Int) :
    0 < (neighbourhood significand exponent).denominator ∧
      0 < (neighbourhood significand exponent).value ∧
      ((neighbourhood significand exponent).below : ℚ) /
        (neighbourhood significand exponent).denominator =
          lowerEnd significand exponent * 2 ^ exponent ∧
      ((neighbourhood significand exponent).value : ℚ) /
        (neighbourhood significand exponent).denominator = significand * 2 ^ exponent ∧
      ((neighbourhood significand exponent).above : ℚ) /
        (neighbourhood significand exponent).denominator =
          (significand + 1 / 2) * 2 ^ exponent := by
  have scale (numerator : Nat) :
      ((numerator * (if exponent < 0 then 1 else Nat.pow 2 exponent.natAbs) : Nat) : ℚ) /
        (if exponent < 0 then 4 * Nat.pow 2 exponent.natAbs else 4 : Nat) =
          numerator / 4 * 2 ^ exponent := by
    split
    next negative =>
      rw [zpow_of_neg 2 negative, Nat.pow_eq]
      push_cast
      field_simp
    next nonnegative =>
      rw [zpow_of_nonneg 2 (not_lt.1 nonnegative), Nat.pow_eq]
      push_cast
      field_simp
  have scalePositive : 0 < if exponent < 0 then 1 else Nat.pow 2 exponent.natAbs := by
    split
    · decide
    · exact Nat.pow_pos (by decide)
  unfold neighbourhood
  dsimp only
  refine ⟨?_, Nat.mul_pos (by omega) scalePositive, ?_, ?_, ?_⟩
  · split
    · exact Nat.mul_pos (by decide) (Nat.pow_pos (by decide))
    · decide
  · rw [scale]
    congr 1
    unfold lowerEnd
    split
    · rw [Nat.cast_sub (by omega)]
      push_cast
      ring
    · rw [Nat.cast_sub (by omega)]
      push_cast
      ring
  · rw [scale]
    push_cast
    ring
  · rw [scale]
    push_cast
    ring

/-- The factor of the numerators on the grid of a power of ten. -/
def gridUp (exponent : Int) : Nat :=
  if exponent < 0 then Nat.pow 10 exponent.natAbs else 1

/-- The factor of the denominator on the grid of a power of ten. -/
def gridDown (exponent : Int) : Nat :=
  if exponent < 0 then 1 else Nat.pow 10 exponent.natAbs

/-- The candidate on the grid of a power of ten reads back as the number of a neighbourhood. -/
def readsBack (around : Neighbourhood) (even : Bool) (exponent : Int) (candidate : Nat) : Bool :=
  let place := candidate * (around.denominator * gridDown exponent)
  if even then around.below * gridUp exponent ≤ place && place ≤ around.above * gridUp exponent
  else around.below * gridUp exponent < place && place < around.above * gridUp exponent

/-- The candidate in front of the value. -/
def gridLower (around : Neighbourhood) (exponent : Int) : Nat :=
  around.value * gridUp exponent / (around.denominator * gridDown exponent)

/-- What is found on a grid is one of the two candidates around the value, and reads back. -/
theorem onGrid?_eq (around : Neighbourhood) (even : Bool) (exponent : Int) :
    ∃ prefersLower : Bool, onGrid? around even exponent =
      if readsBack around even exponent (gridLower around exponent) &&
          (prefersLower || !readsBack around even exponent (gridLower around exponent + 1)) then
        some ⟨gridLower around exponent, exponent⟩
      else if readsBack around even exponent (gridLower around exponent + 1) then
        some ⟨gridLower around exponent + 1, exponent⟩
      else none :=
  ⟨_, by unfold onGrid? readsBack gridLower gridUp gridDown; dsimp only⟩

theorem readsBack_of_onGrid? {around : Neighbourhood} {even : Bool} {exponent : Int}
    {found : Decimal} (isFound : onGrid? around even exponent = some found) :
    found.exponent = exponent ∧ readsBack around even exponent found.digits = true := by
  obtain ⟨prefersLower, equation⟩ := onGrid?_eq around even exponent
  rw [equation] at isFound
  split at isFound
  next lower =>
    cases isFound
    exact ⟨rfl, (Bool.and_eq_true_iff.1 lower).1⟩
  next =>
    split at isFound
    next upper =>
      cases isFound
      exact ⟨rfl, upper⟩
    next => cases isFound

theorem onGrid?_isSome {around : Neighbourhood} {even : Bool} {exponent : Int}
    (reads : readsBack around even exponent (gridLower around exponent) = true ∨
      readsBack around even exponent (gridLower around exponent + 1) = true) :
    (onGrid? around even exponent).isSome = true := by
  obtain ⟨prefersLower, equation⟩ := onGrid?_eq around even exponent
  rw [equation]
  rcases reads with lower | upper
  · cases upper : readsBack around even exponent (gridLower around exponent + 1) with
    | true => cases prefersLower <;> simp [lower]
    | false => simp [lower]
  · split
    · rfl
    · rfl

/-- Both factors of a grid make up its power of ten. -/
theorem grid_power (exponent : Int) :
    0 < gridUp exponent ∧ 0 < gridDown exponent ∧
      (gridDown exponent : ℚ) = 10 ^ exponent * gridUp exponent := by
  unfold gridUp gridDown
  split
  next negative =>
    refine ⟨Nat.pow_pos (by decide), by decide, ?_⟩
    rw [zpow_of_neg 10 negative, Nat.pow_eq]
    push_cast
    field_simp
  next nonnegative =>
    refine ⟨by decide, Nat.pow_pos (by decide), ?_⟩
    rw [zpow_of_nonneg 10 (not_lt.1 nonnegative), Nat.pow_eq]
    push_cast
    ring

/-- The numerators and the candidates that are compared on a grid are their values, times one
factor. -/
theorem grid_scale {denominator : Nat} (divides : 0 < denominator) (exponent : Int) :
    ∃ factor : ℚ, 0 < factor ∧
      (∀ numerator : Nat, ((numerator * gridUp exponent : Nat) : ℚ) =
        factor * (numerator / denominator)) ∧
      ∀ candidate : Nat, ((candidate * (denominator * gridDown exponent) : Nat) : ℚ) =
        factor * (candidate * 10 ^ exponent) := by
  obtain ⟨up, -, down⟩ := grid_power exponent
  have divisor : (0 : ℚ) < denominator := by exact_mod_cast divides
  have upper : (0 : ℚ) < gridUp exponent := by exact_mod_cast up
  refine ⟨denominator * gridUp exponent, mul_pos divisor upper, ?_, ?_⟩
  · intro numerator
    push_cast
    field_simp
  · intro candidate
    push_cast
    rw [down]
    ring

/-- A candidate reads back exactly if its value lies between the ends of the neighbourhood. -/
theorem readsBack_iff {around : Neighbourhood} (divides : 0 < around.denominator) (even : Bool)
    (exponent : Int) (candidate : Nat) :
    readsBack around even exponent candidate = true ↔
      if even then (around.below : ℚ) / around.denominator ≤ candidate * 10 ^ exponent ∧
        candidate * 10 ^ exponent ≤ (around.above : ℚ) / around.denominator
      else (around.below : ℚ) / around.denominator < candidate * 10 ^ exponent ∧
        candidate * 10 ^ exponent < (around.above : ℚ) / around.denominator := by
  obtain ⟨factor, positive, numerators, candidates⟩ := grid_scale divides exponent
  unfold readsBack
  dsimp only
  cases even with
  | true =>
    simp only [if_true, Bool.and_eq_true, decide_eq_true_eq]
    rw [← Nat.cast_le (α := ℚ), ← Nat.cast_le (α := ℚ), numerators, numerators, candidates,
      mul_le_mul_iff_right₀ positive, mul_le_mul_iff_right₀ positive]
  | false =>
    simp only [Bool.false_eq_true, if_false, Bool.and_eq_true, decide_eq_true_eq]
    rw [← Nat.cast_lt (α := ℚ), ← Nat.cast_lt (α := ℚ), numerators, numerators, candidates,
      mul_lt_mul_iff_right₀ positive, mul_lt_mul_iff_right₀ positive]

/-- The value lies between the candidate in front of it and the next one. -/
theorem gridLower_bounds {around : Neighbourhood} (divides : 0 < around.denominator)
    (exponent : Int) :
    (gridLower around exponent : ℚ) * 10 ^ exponent ≤ around.value / around.denominator ∧
      (around.value : ℚ) / around.denominator <
        ((gridLower around exponent + 1 : Nat) : ℚ) * 10 ^ exponent := by
  obtain ⟨factor, positive, numerators, candidates⟩ := grid_scale divides exponent
  obtain ⟨-, down, -⟩ := grid_power exponent
  have unit : 0 < around.denominator * gridDown exponent := Nat.mul_pos divides down
  constructor
  · rw [← mul_le_mul_iff_right₀ positive, ← numerators, ← candidates, Nat.cast_le]
    exact Nat.div_mul_le_self _ _
  · rw [← mul_lt_mul_iff_right₀ positive, ← numerators, ← candidates, Nat.cast_lt]
    exact (Nat.div_lt_iff_lt_mul unit).1 (Nat.lt_succ_self _)

/-- The lower end is nearer to a number that is the first one of its power of two. -/
theorem lowerEnd_cases (significand : Nat) (exponent : Int) :
    Narrow significand exponent ∧ lowerEnd significand exponent = significand - 1 / 4 ∨
      ¬ Narrow significand exponent ∧ lowerEnd significand exponent = significand - 1 / 2 := by
  unfold lowerEnd Narrow
  rw [pow_precision_pred]
  split
  next narrow =>
    exact .inl ⟨by simpa using narrow, rfl⟩
  next wide =>
    exact .inr ⟨by simpa using wide, rfl⟩

/-- A candidate that reads back lies in the interval of the number. -/
theorem roundsTo_of_readsBack {significand : Nat} (positive : 0 < significand) {exponent power : Int}
    {candidate : Nat}
    (reads : readsBack (neighbourhood significand exponent) (significand % 2 = 0) power candidate =
      true) :
    RoundsTo (candidate * 10 ^ power) significand exponent := by
  obtain ⟨divides, -, below, -, above⟩ := neighbourhood_values positive exponent
  have scale : (0 : ℚ) < 2 ^ exponent := by positivity
  have inside := (readsBack_iff divides _ power candidate).1 reads
  rw [below, above] at inside
  have closed : lowerEnd significand exponent ≤ candidate * 10 ^ power / 2 ^ exponent ∧
      candidate * 10 ^ power / 2 ^ exponent ≤ (significand : ℚ) + 1 / 2 := by
    rw [le_div_iff₀ scale, div_le_iff₀ scale]
    split at inside
    · exact inside
    · exact ⟨inside.1.le, inside.2.le⟩
  have inner (odd : significand % 2 = 1) :
      lowerEnd significand exponent < candidate * 10 ^ power / 2 ^ exponent ∧
        candidate * 10 ^ power / 2 ^ exponent < (significand : ℚ) + 1 / 2 := by
    rw [lt_div_iff₀ scale, div_lt_iff₀ scale]
    rwa [if_neg (by simp [odd])] at inside
  rcases lowerEnd_cases significand exponent with ⟨narrow, ends⟩ | ⟨wide, ends⟩
  · rw [ends] at closed inner
    exact ⟨by linarith [closed.1], fun _ => closed.1, closed.2,
      fun odd => ⟨by linarith [(inner odd).1], (inner odd).2⟩⟩
  · rw [ends] at closed inner
    exact ⟨closed.1, fun narrow => absurd narrow wide, closed.2, inner⟩

/-- On the grid of seventeen digits a candidate reads back, because a step of it is shorter than the
interval of the number. -/
theorem readsBack_of_mostDigits {significand : Nat} {exponent : Int}
    (fits : Fits significand exponent) (positive : 0 < significand) (even : Bool) {point : Int}
    (leading : (10 : ℚ) ^ (point - 1) ≤ significand * 2 ^ exponent) :
    let around := neighbourhood significand exponent
    readsBack around even (point - 17) (gridLower around (point - 17)) = true ∨
      readsBack around even (point - 17) (gridLower around (point - 17) + 1) = true := by
  obtain ⟨divides, -, below, value, above⟩ := neighbourhood_values positive exponent
  obtain ⟨before, behind⟩ := gridLower_bounds divides (point - 17)
  have scale : (0 : ℚ) < 2 ^ exponent := by positivity
  have bound : (significand : ℚ) < 2 ^ 53 := by exact_mod_cast fits.small
  have step : 10 ^ 16 * (10 : ℚ) ^ (point - 17) ≤ significand * 2 ^ exponent := by
    calc 10 ^ 16 * (10 : ℚ) ^ (point - 17) = 10 ^ (16 : Int) * 10 ^ (point - 17) := by norm_num
      _ = 10 ^ (point - 1) := by
          rw [← zpow_add₀ (by norm_num)]
          congr 1
          ring
      _ ≤ _ := leading
  have shorter : (10 : ℚ) ^ (point - 17) <
      (significand + 1 / 2) * 2 ^ exponent - lowerEnd significand exponent * 2 ^ exponent := by
    rcases lowerEnd_cases significand exponent with ⟨⟨first, -⟩, ends⟩ | ⟨-, ends⟩
    · rw [ends]
      rw [first] at step
      push_cast at step
      nlinarith
    · rw [ends]
      nlinarith
  have lowerEnd_le : lowerEnd significand exponent * 2 ^ exponent <
      significand * 2 ^ exponent := by
    rcases lowerEnd_cases significand exponent with ⟨-, ends⟩ | ⟨-, ends⟩ <;>
    · rw [ends]
      nlinarith
  dsimp only
  rw [readsBack_iff divides, readsBack_iff divides, below, above]
  rw [value] at before behind
  push_cast at behind ⊢
  by_contra neither
  obtain ⟨notLower, notUpper⟩ := not_or.1 neither
  cases even with
  | true =>
    simp only [if_true, not_and, not_le] at notLower notUpper
    have first : (gridLower (neighbourhood significand exponent) (point - 17) : ℚ) *
        10 ^ (point - 17) < lowerEnd significand exponent * 2 ^ exponent := by
      by_contra inside
      linarith [notLower (not_lt.1 inside)]
    have second := notUpper (by linarith)
    linarith
  | false =>
    simp only [Bool.false_eq_true, if_false, not_and, not_lt] at notLower notUpper
    have first : (gridLower (neighbourhood significand exponent) (point - 17) : ℚ) *
        10 ^ (point - 17) ≤ lowerEnd significand exponent * 2 ^ exponent := by
      by_contra inside
      linarith [notLower (not_le.1 inside)]
    have second := notUpper (by linarith)
    linarith

/-- The shortest decimal of a number lies in its interval. -/
theorem shortest_roundsTo {significand : Nat} {exponent : Int} (fits : Fits significand exponent)
    (positive : 0 < significand) :
    RoundsTo (shortest significand exponent).value significand exponent := by
  obtain ⟨divides, some, -, value, -⟩ := neighbourhood_values positive exponent
  have leading := pointOf_le some divides
  rw [value] at leading
  have reads := readsBack_of_mostDigits fits positive (significand % 2 = 0) leading
  have last := onGrid?_isSome reads
  unfold shortest
  dsimp only
  cases found : (List.range mostDigits).findSome? fun extra : Nat =>
      onGrid? (neighbourhood significand exponent) (significand % 2 = 0)
        (pointOf (neighbourhood significand exponent).value
          (neighbourhood significand exponent).denominator - ((extra : Int) + 1)) with
  | none =>
    have nothing := List.findSome?_eq_none_iff.1 found 16 (List.mem_range.2 (by decide))
    norm_num at nothing
    rw [nothing] at last
    cases last
  | some decimal =>
    obtain ⟨extra, -, onGrid⟩ := List.exists_of_findSome?_eq_some found
    obtain ⟨-, back⟩ := readsBack_of_onGrid? onGrid
    have power := (readsBack_of_onGrid? onGrid).1
    rw [← power] at back
    exact roundsTo_of_readsBack positive back

/-- The shortest decimal of a positive number is positive. -/
theorem shortest_digits_pos {significand : Nat} {exponent : Int}
    (fits : Fits significand exponent) (positive : 0 < significand) :
    0 < (shortest significand exponent).digits := by
  have least := ((shortest_roundsTo fits positive).bounds fits positive).1
  rw [Nat.pos_iff_ne_zero]
  intro zero
  unfold Decimal.value at least
  rw [zero, Nat.cast_zero, zero_mul] at least
  exact absurd least (not_le.2 (by positivity))

/-- The shortest decimal of a number is read as that number. -/
theorem ofDecimal_shortest (negative : Bool) {significand : Nat} {exponent : Int}
    (fits : Fits significand exponent) (positive : 0 < significand) {digits : Nat} {power : Int}
    (same : (digits : ℚ) * 10 ^ power = (shortest significand exponent).value) :
    ofDecimal negative digits power = .finite negative significand exponent := by
  refine ofDecimal_of_roundsTo negative positive fits ?_
  rw [same]
  exact shortest_roundsTo fits positive

end Retrace.Number.Binary64
