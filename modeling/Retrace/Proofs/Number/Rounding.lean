import Mathlib.Algebra.Order.Field.Power
import Mathlib.Data.Rat.Cast.Order
import Mathlib.Tactic.FieldSimp
import Mathlib.Tactic.Linarith
import Mathlib.Tactic.NormNum
import Mathlib.Tactic.Positivity
import Mathlib.Tactic.Ring
import Retrace.Number.Binary64

/-!
# Rounding to the nearest number

A positive fraction has one power of two for which it has a significand's size, and `exponentFor`
finds it. Every value in the interval of a number, ends included if the significand is even, rounds
to that number; and whatever a fraction rounds to has a significand and an exponent that fit.
-/

namespace Retrace.Number.Binary64

/-- The significand and the exponent of a finite number: a full significand, unless the exponent is
the least one. -/
structure Fits (significand : Nat) (exponent : Int) : Prop where
  small : significand < Nat.pow 2 precision
  least : leastExponent ≤ exponent
  greatest : exponent ≤ greatestExponent
  full : Nat.pow 2 (precision - 1) ≤ significand ∨ exponent = leastExponent

/-- A finite number has a significand and an exponent that fit. -/
def Canonical : Binary64 → Prop
  | .finite _ significand exponent => Fits significand exponent
  | _ => True

/-- The power of two is the one for which the value has a significand's size, as far as it is not
below the least one. -/
structure Scales (value : ℚ) (exponent : Int) : Prop where
  least : leastExponent ≤ exponent
  below : value < 2 ^ (53 : Int) * 2 ^ exponent
  full : exponent = leastExponent ∨ 2 ^ (52 : Int) * 2 ^ exponent ≤ value

theorem pow_precision : Nat.pow 2 precision = 2 ^ 53 := rfl

theorem pow_precision_pred : Nat.pow 2 (precision - 1) = 2 ^ 52 := rfl

/-- A significand that fits is at least one below the bound. -/
theorem Fits.succ_le {significand : Nat} {exponent : Int} (fits : Fits significand exponent) :
    (significand : ℚ) + 1 ≤ 2 ^ 53 := by
  have bound := fits.small
  rw [pow_precision] at bound
  exact_mod_cast bound

/-- At most one power of two scales a value. -/
theorem Scales.unique {value : ℚ} {first second : Int} (left : Scales value first)
    (right : Scales value second) : first = second := by
  have notLess : ∀ {low high : Int}, Scales value low → Scales value high → ¬ low < high := by
    intro low high isLow isHigh less
    rcases isHigh.full with atLeast | full
    · exact absurd isLow.least (by omega)
    · have step : (2 : ℚ) ^ (53 : Int) * 2 ^ low ≤ 2 ^ (52 : Int) * 2 ^ high := by
        rw [← zpow_add₀ (by norm_num), ← zpow_add₀ (by norm_num)]
        exact zpow_le_zpow_right₀ (by norm_num) (by omega)
      exact absurd (lt_of_lt_of_le isLow.below (step.trans full)) (lt_irrefl _)
  exact le_antisymm (not_lt.1 (notLess right left)) (not_lt.1 (notLess left right))

/-- A negative power is the inverse of a natural one. -/
theorem zpow_of_neg (base : ℚ) {exponent : Int} (negative : exponent < 0) :
    base ^ exponent = (base ^ exponent.natAbs)⁻¹ := by
  have power : exponent = -(exponent.natAbs : Int) := by omega
  rw [power, zpow_neg, zpow_natCast, Int.natAbs_neg, Int.natAbs_natCast]

/-- A power that is not negative is a natural one. -/
theorem zpow_of_nonneg (base : ℚ) {exponent : Int} (nonnegative : 0 ≤ exponent) :
    base ^ exponent = base ^ exponent.natAbs := by
  have power : exponent = (exponent.natAbs : Int) := by omega
  rw [power, zpow_natCast, Int.natAbs_natCast]

/-- Scaling a fraction divides it by the power of two. -/
theorem scaled_value (numerator denominator : Nat) (exponent : Int) :
    ((scaled numerator denominator exponent).1 : ℚ) / (scaled numerator denominator exponent).2 =
      numerator / denominator / 2 ^ exponent := by
  unfold scaled
  split
  next negative =>
    rw [zpow_of_neg 2 negative, Nat.pow_eq]
    push_cast
    field_simp
  next nonnegative =>
    rw [zpow_of_nonneg 2 (not_lt.1 nonnegative), Nat.pow_eq]
    push_cast
    field_simp

theorem scaled_pos (numerator : Nat) {denominator : Nat} (positive : 0 < denominator)
    (exponent : Int) :
    0 < (scaled numerator denominator exponent).2 := by
  unfold scaled
  split
  · exact positive
  · exact Nat.mul_pos positive (Nat.pow_pos (by decide))

/-- A quotient of naturals lies below a bound exactly if the fraction does. -/
theorem div_lt_iff_ratio {top bottom bound : Nat} (positive : 0 < bottom) :
    top / bottom < bound ↔ (top : ℚ) / bottom < bound := by
  rw [Nat.div_lt_iff_lt_mul positive, div_lt_iff₀ (by exact_mod_cast positive)]
  exact_mod_cast Iff.rfl

/-- A positive number lies between its leading power of two and the next one. -/
theorem log2_bounds {number : Nat} (positive : 0 < number) :
    (2 : ℚ) ^ (Nat.log2 number : Int) ≤ number ∧
      (number : ℚ) < 2 ^ ((Nat.log2 number : Int) + 1) := by
  have lower := Nat.log2_self_le (Nat.pos_iff_ne_zero.1 positive)
  have upper := Nat.lt_log2_self (n := number)
  constructor
  · rw [zpow_natCast]
    exact_mod_cast lower
  · have power : ((Nat.log2 number : Int) + 1) = ((Nat.log2 number + 1 : Nat) : Int) := by simp
    rw [power, zpow_natCast]
    exact_mod_cast upper

/-- A power of two that gives a value a significand's size scales it, once it is raised to the least
one. -/
theorem scales_max {value : ℚ} {exponent : Int} (below : value < 2 ^ (53 : Int) * 2 ^ exponent)
    (full : 2 ^ (52 : Int) * 2 ^ exponent ≤ value) : Scales value (max leastExponent exponent) := by
  rcases le_total leastExponent exponent with large | tooSmall
  · rw [max_eq_right large]
    exact ⟨large, below, .inr full⟩
  · rw [max_eq_left tooSmall]
    have wider : (2 : ℚ) ^ exponent ≤ 2 ^ leastExponent :=
      zpow_le_zpow_right₀ (by norm_num) tooSmall
    exact ⟨le_refl _, lt_of_lt_of_le below (mul_le_mul_of_nonneg_left wider (by positivity)),
      .inl rfl⟩

/-- The chosen power of two scales a positive fraction. -/
theorem exponentFor_scales {numerator denominator : Nat} (positive : 0 < numerator)
    (divides : 0 < denominator) :
    Scales ((numerator : ℚ) / denominator) (exponentFor numerator denominator) := by
  obtain ⟨numeratorLow, numeratorHigh⟩ := log2_bounds positive
  obtain ⟨denominatorLow, denominatorHigh⟩ := log2_bounds divides
  have divisor : (0 : ℚ) < denominator := by exact_mod_cast divides
  unfold exponentFor
  dsimp only
  generalize estimated : (Nat.log2 numerator : Int) - Nat.log2 denominator - (precision : Nat) =
    estimate
  have digits : (Nat.log2 numerator : Int) = Nat.log2 denominator + 53 + estimate := by
    simp only [precision] at estimated
    omega
  have scale : (0 : ℚ) < 2 ^ estimate := by positivity
  -- The estimate comes from the lengths of both numbers, so it is at most one too small.
  have lower : 2 ^ (52 : Int) * 2 ^ estimate ≤ (numerator : ℚ) / denominator := by
    rw [le_div_iff₀ divisor]
    calc (2 : ℚ) ^ (52 : Int) * 2 ^ estimate * denominator
        ≤ 2 ^ (52 : Int) * 2 ^ estimate * 2 ^ ((Nat.log2 denominator : Int) + 1) :=
          mul_le_mul_of_nonneg_left denominatorHigh.le (by positivity)
      _ = 2 ^ (Nat.log2 numerator : Int) := by
          rw [← zpow_add₀ (by norm_num), ← zpow_add₀ (by norm_num), digits]
          congr 1
          ring
      _ ≤ numerator := numeratorLow
  have upper : (numerator : ℚ) / denominator < 2 ^ (53 : Int) * 2 ^ (estimate + 1) := by
    rw [div_lt_iff₀ divisor]
    calc (numerator : ℚ) < 2 ^ ((Nat.log2 numerator : Int) + 1) := numeratorHigh
      _ = 2 ^ (53 : Int) * 2 ^ (estimate + 1) * 2 ^ (Nat.log2 denominator : Int) := by
          rw [← zpow_add₀ (by norm_num), ← zpow_add₀ (by norm_num), digits]
          congr 1
          ring
      _ ≤ 2 ^ (53 : Int) * 2 ^ (estimate + 1) * denominator :=
          mul_le_mul_of_nonneg_left denominatorLow (by positivity)
  have compared : (scaled numerator denominator estimate).1 /
      (scaled numerator denominator estimate).2 < Nat.pow 2 precision ↔
      (numerator : ℚ) / denominator < 2 ^ (53 : Int) * 2 ^ estimate := by
    rw [div_lt_iff_ratio (scaled_pos numerator divides estimate), scaled_value, div_lt_iff₀ scale,
      pow_precision]
    norm_num
  split
  next small => exact scales_max (compared.1 small) lower
  next large =>
    refine scales_max upper ?_
    have atLeast := not_lt.1 (mt compared.2 large)
    calc (2 : ℚ) ^ (52 : Int) * 2 ^ (estimate + 1) = 2 ^ (53 : Int) * 2 ^ estimate := by
          rw [← zpow_add₀ (by norm_num), ← zpow_add₀ (by norm_num)]
          congr 1
          ring
      _ ≤ _ := atLeast

/-- The value lies so near to an integer that it rounds to it; a value in the middle rounds to the
even neighbour. -/
structure Nears (value : ℚ) (integer : Nat) : Prop where
  lower : (integer : ℚ) - 1 / 2 ≤ value
  upper : value ≤ (integer : ℚ) + 1 / 2
  ties : integer % 2 = 1 → (integer : ℚ) - 1 / 2 < value ∧ value < (integer : ℚ) + 1 / 2

/-- What it means for a fraction to be near to an integer, without fractions. -/
theorem Nears.cleared {top bottom integer : Nat} (positive : 0 < bottom)
    (nears : Nears ((top : ℚ) / bottom) integer) :
    2 * integer * bottom ≤ 2 * top + bottom ∧ 2 * top ≤ 2 * integer * bottom + bottom ∧
      (integer % 2 = 1 →
        2 * integer * bottom < 2 * top + bottom ∧ 2 * top < 2 * integer * bottom + bottom) := by
  have divisor : (0 : ℚ) < bottom := by exact_mod_cast positive
  refine ⟨?_, ?_, ?_⟩
  · have lower := (le_div_iff₀ divisor).1 nears.lower
    have cleared : (2 * integer * bottom : ℚ) ≤ 2 * top + bottom := by linarith
    exact_mod_cast cleared
  · have upper := (div_le_iff₀ divisor).1 nears.upper
    have cleared : (2 * top : ℚ) ≤ 2 * integer * bottom + bottom := by linarith
    exact_mod_cast cleared
  · intro odd
    obtain ⟨above, below⟩ := nears.ties odd
    have lower : (2 * integer * bottom : ℚ) < 2 * top + bottom := by
      linarith [(lt_div_iff₀ divisor).1 above]
    have upper : (2 * top : ℚ) < 2 * integer * bottom + bottom := by
      linarith [(div_lt_iff₀ divisor).1 below]
    exact ⟨by exact_mod_cast lower, by exact_mod_cast upper⟩

/-- A fraction rounds to the integer that it is near to. -/
theorem roundedQuotient_of_nears {top bottom : Nat} (integer : Nat) (positive : 0 < bottom)
    (nears : Nears ((top : ℚ) / bottom) integer) : roundedQuotient top bottom = integer := by
  obtain ⟨lower, upper, strict⟩ := nears.cleared positive
  have split : bottom * (top / bottom) + top % bottom = top := Nat.div_add_mod top bottom
  have remains : top % bottom < bottom := Nat.mod_lt top positive
  unfold roundedQuotient
  dsimp only
  generalize top / bottom = quotient at split ⊢
  generalize top % bottom = remainder at split remains ⊢
  have neighbour : integer = quotient ∨ integer = quotient + 1 := by
    have notBelow : quotient ≤ integer := by
      by_contra less
      have products := Nat.mul_le_mul_right bottom (not_le.1 less)
      nlinarith
    have notAbove : integer ≤ quotient + 1 := by
      by_contra more
      have products := Nat.mul_le_mul_right bottom (not_le.1 more)
      nlinarith
    omega
  rcases neighbour with rfl | rfl
  · have half : 2 * remainder ≤ bottom := by nlinarith
    have less (odd : integer % 2 = 1) : 2 * remainder < bottom := by nlinarith [strict odd]
    split_ifs with nearer farther
    · rfl
    · omega
    · rcases Nat.mod_two_eq_zero_or_one integer with even | odd
      · omega
      · exact absurd (less odd) nearer
  · have half : bottom ≤ 2 * remainder := by nlinarith
    have more (odd : (quotient + 1) % 2 = 1) : bottom < 2 * remainder := by nlinarith [strict odd]
    split_ifs with nearer farther
    · omega
    · rfl
    · rcases Nat.mod_two_eq_zero_or_one (quotient + 1) with even | odd
      · omega
      · exact absurd (more odd) farther

/-- A fraction that is at least an integer does not round below it. -/
theorem le_roundedQuotient {top bottom integer : Nat} (positive : 0 < bottom)
    (atLeast : (integer : ℚ) ≤ (top : ℚ) / bottom) : integer ≤ roundedQuotient top bottom := by
  have divisor : (0 : ℚ) < bottom := by exact_mod_cast positive
  have product : integer * bottom ≤ top := by exact_mod_cast (le_div_iff₀ divisor).1 atLeast
  have quotient : integer ≤ top / bottom := (Nat.le_div_iff_mul_le positive).2 product
  unfold roundedQuotient
  dsimp only
  split_ifs <;> omega

/-- A fraction below an integer does not round above it. -/
theorem roundedQuotient_le {top bottom integer : Nat} (positive : 0 < bottom)
    (below : (top : ℚ) / bottom < integer) : roundedQuotient top bottom ≤ integer := by
  have quotient : top / bottom < integer := (div_lt_iff_ratio positive).2 below
  unfold roundedQuotient
  dsimp only
  split_ifs <;> omega

/-- The number is the first one of its power of two, so that its lower neighbour is nearer than its
upper one. -/
def Narrow (significand : Nat) (exponent : Int) : Prop :=
  significand = 2 ^ 52 ∧ leastExponent < exponent

/-- The value lies in the interval of a number: between the middles to both neighbours, ends
included if the significand is even. -/
structure RoundsTo (value : ℚ) (significand : Nat) (exponent : Int) : Prop where
  lower : (significand : ℚ) - 1 / 2 ≤ value / 2 ^ exponent
  narrow : Narrow significand exponent → (significand : ℚ) - 1 / 4 ≤ value / 2 ^ exponent
  upper : value / 2 ^ exponent ≤ (significand : ℚ) + 1 / 2
  ties : significand % 2 = 1 →
    (significand : ℚ) - 1 / 2 < value / 2 ^ exponent ∧
      value / 2 ^ exponent < (significand : ℚ) + 1 / 2

/-- The number nearest to a fraction, by the power of two that scales it. -/
theorem ofFraction_eq (negative : Bool) (numerator denominator : Nat) :
    ofFraction negative numerator denominator =
      let exponent := exponentFor numerator denominator
      let significand := roundedQuotient (scaled numerator denominator exponent).1
        (scaled numerator denominator exponent).2
      let placed := if significand = Nat.pow 2 precision
        then (Nat.pow 2 (precision - 1), exponent + 1) else (significand, exponent)
      if greatestExponent < placed.2 then .infinity negative
      else .finite negative placed.1 placed.2 := by
  unfold ofFraction
  dsimp only

/-- A value in the interval of a number lies below the numbers of the next power of two. -/
theorem RoundsTo.below {value : ℚ} {significand : Nat} {exponent : Int}
    (rounds : RoundsTo value significand exponent) (fits : Fits significand exponent) :
    value < 2 ^ (53 : Int) * 2 ^ exponent := by
  have scale : (0 : ℚ) < 2 ^ exponent := by positivity
  have small := fits.succ_le
  have upper := rounds.upper
  rw [← div_lt_iff₀ scale]
  norm_num at small ⊢
  linarith

/-- A value in the interval of a number, but below all numbers of its power of two, belongs to the
first one of them; it is scaled by the power before, and there it is near to the bound. -/
theorem RoundsTo.previous {value : ℚ} {significand : Nat} {exponent : Int}
    (rounds : RoundsTo value significand exponent) (fits : Fits significand exponent)
    (above : leastExponent < exponent) (notFull : value < 2 ^ (52 : Int) * 2 ^ exponent) :
    significand = 2 ^ 52 ∧ Scales value (exponent - 1) ∧
      Nears (value / 2 ^ (exponent - 1)) (2 ^ 53) := by
  have scale : (0 : ℚ) < 2 ^ exponent := by positivity
  have finer : (0 : ℚ) < 2 ^ (exponent - 1) := by positivity
  have quotient : value / 2 ^ exponent < 2 ^ 52 := by
    rw [div_lt_iff₀ scale]
    norm_num at notFull ⊢
    exact notFull
  have first : significand = 2 ^ 52 := by
    have atLeast : 2 ^ 52 ≤ significand := fits.full.resolve_right (ne_of_gt above)
    have atMost : (significand : ℚ) < 2 ^ 52 + 1 := by
      have lower := rounds.lower
      linarith
    have bound : significand < 2 ^ 52 + 1 := by exact_mod_cast atMost
    omega
  have near := rounds.narrow ⟨first, above⟩
  have cast : (significand : ℚ) = 2 ^ 52 := by
    rw [first]
    norm_num
  rw [cast] at near
  have doubled : value / 2 ^ (exponent - 1) = 2 * (value / 2 ^ exponent) := by
    have halves : (2 : ℚ) ^ exponent = 2 * 2 ^ (exponent - 1) := by
      rw [← zpow_one_add₀ (by norm_num)]
      congr 1
      ring
    rw [halves]
    field_simp
  refine ⟨first, ⟨by omega, ?_, .inr ?_⟩, ⟨?_, ?_, ?_⟩⟩
  · rw [← div_lt_iff₀ finer, doubled]
    norm_num at quotient ⊢
    linarith
  · rw [← le_div_iff₀ finer, doubled]
    norm_num at near ⊢
    linarith
  · rw [doubled]
    norm_num at near ⊢
    linarith
  · rw [doubled]
    norm_num at quotient ⊢
    linarith
  · intro odd
    exact absurd odd (by decide)

/-- Every fraction in the interval of a number rounds to that number. -/
theorem ofFraction_of_roundsTo (negative : Bool) {numerator denominator significand : Nat}
    {exponent : Int} (positive : 0 < numerator) (divides : 0 < denominator)
    (fits : Fits significand exponent)
    (rounds : RoundsTo ((numerator : ℚ) / denominator) significand exponent) :
    ofFraction negative numerator denominator = .finite negative significand exponent := by
  have scales := exponentFor_scales positive divides
  have value := scaled_value numerator denominator (exponentFor numerator denominator)
  have bottom := scaled_pos numerator divides (exponentFor numerator denominator)
  rw [ofFraction_eq]
  dsimp only
  by_cases full : exponent = leastExponent ∨
      2 ^ (52 : Int) * 2 ^ exponent ≤ (numerator : ℚ) / denominator
  · have same := scales.unique ⟨fits.least, rounds.below fits, full⟩
    rw [same] at value bottom ⊢
    have nears : Nears ((numerator : ℚ) / denominator / 2 ^ exponent) significand :=
      ⟨rounds.lower, rounds.upper, rounds.ties⟩
    rw [← value] at nears
    rw [roundedQuotient_of_nears significand bottom nears, if_neg (Nat.ne_of_lt fits.small),
      if_neg (not_lt.2 fits.greatest)]
  · obtain ⟨notLeast, notFull⟩ := not_or.1 full
    have above : leastExponent < exponent := lt_of_le_of_ne fits.least (Ne.symm notLeast)
    obtain ⟨first, previous, nears⟩ := rounds.previous fits above (not_le.1 notFull)
    have same := scales.unique previous
    rw [same] at value bottom ⊢
    rw [← value] at nears
    rw [roundedQuotient_of_nears (2 ^ 53) bottom nears, if_pos pow_precision.symm]
    dsimp only
    rw [sub_add_cancel, if_neg (not_lt.2 fits.greatest), pow_precision_pred, first]

/-- Whatever a fraction rounds to is a number whose significand and exponent fit. -/
theorem ofFraction_canonical (negative : Bool) {numerator denominator : Nat}
    (positive : 0 < numerator) (divides : 0 < denominator) :
    (ofFraction negative numerator denominator).Canonical := by
  have scales := exponentFor_scales positive divides
  have scale : (0 : ℚ) < 2 ^ exponentFor numerator denominator := by positivity
  have value := scaled_value numerator denominator (exponentFor numerator denominator)
  have bottom := scaled_pos numerator divides (exponentFor numerator denominator)
  have atMost : roundedQuotient (scaled numerator denominator (exponentFor numerator denominator)).1
      (scaled numerator denominator (exponentFor numerator denominator)).2 ≤ 2 ^ 53 := by
    refine roundedQuotient_le bottom ?_
    rw [value, div_lt_iff₀ scale]
    exact_mod_cast scales.below
  have atLeast : exponentFor numerator denominator = leastExponent ∨ 2 ^ 52 ≤
      roundedQuotient (scaled numerator denominator (exponentFor numerator denominator)).1
        (scaled numerator denominator (exponentFor numerator denominator)).2 := by
    refine scales.full.imp_right fun full => le_roundedQuotient bottom ?_
    rw [value, le_div_iff₀ scale]
    exact_mod_cast full
  rw [ofFraction_eq]
  dsimp only
  generalize roundedQuotient _ _ = significand at atMost atLeast ⊢
  generalize exponentFor numerator denominator = exponent at scales atLeast ⊢
  have least := scales.least
  by_cases top : significand = Nat.pow 2 precision
  · rw [if_pos top]
    dsimp only
    split
    · trivial
    next bounded =>
      exact ⟨by decide, by omega, not_lt.1 bounded, .inl le_rfl⟩
  · rw [if_neg top]
    dsimp only
    split
    · trivial
    next bounded =>
      exact ⟨lt_of_le_of_ne atMost top, least, not_lt.1 bounded, atLeast.symm⟩

end Retrace.Number.Binary64
