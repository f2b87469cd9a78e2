import Mathlib.Algebra.Order.Ring.Nat
import Mathlib.Data.List.Induction
import Mathlib.Tactic.Ring
import Retrace.Number.Numeral

/-!
# Decimal digits read back

A number is the value of its digits. Zeros in front of digits mean nothing, and zeros behind them
are factors of ten.
-/

namespace Retrace.Number

/-- A decimal digit character stands for its value. -/
theorem digitValue?_digitChar {value : Nat} (small : value < 10) :
    Text.digitValue? value.digitChar = some value := by
  have checked : ∀ value : Fin 10, Text.digitValue? value.val.digitChar = some value.val := by
    decide
  exact checked ⟨value, small⟩

/-- The value of digits behind digits. -/
theorem digitsValue_append (front back : List Char) :
    digitsValue (front ++ back) =
      digitsValue front * Nat.pow 10 back.length + digitsValue back := by
  induction back using List.reverseRecOn with
  | nil => simp [digitsValue]
  | append_singleton back digit inductionHypothesis =>
    have step (digits : List Char) : digitsValue (digits ++ [digit]) =
        10 * digitsValue digits + (Text.digitValue? digit).getD 0 := by
      simp [digitsValue]
    rw [← List.append_assoc, step, step, inductionHypothesis]
    simp only [List.length_append, List.length_singleton, Nat.pow_eq, pow_succ]
    ring

/-- A number is the value of its digits. -/
theorem digitsValue_digits (number : Nat) : digitsValue (digits number) = number := by
  induction number using Nat.strongRecOn with
  | ind number inductionHypothesis =>
    unfold digits
    rw [Nat.toDigits_eq_if (by decide)]
    split
    next small => simp [digitsValue, digitValue?_digitChar small]
    next large =>
      have shorter := inductionHypothesis (number / 10) (by omega)
      have last : digitsValue [(number % 10).digitChar] = number % 10 := by
        simp [digitsValue, digitValue?_digitChar (Nat.mod_lt number (by decide))]
      rw [digitsValue_append, last]
      rw [digits] at shorter
      rw [shorter]
      simp only [List.length_singleton, Nat.pow_eq, pow_one]
      omega

/-- Zeros mean nothing by themselves. -/
theorem digitsValue_replicate_zero (count : Nat) :
    digitsValue (List.replicate count '0') = 0 := by
  induction count with
  | zero => rfl
  | succ count inductionHypothesis =>
    rw [List.replicate_succ', digitsValue_append, inductionHypothesis]
    rfl

/-- Zeros in front of digits mean nothing. -/
theorem digitsValue_zeros_append (count : Nat) (digits : List Char) :
    digitsValue (List.replicate count '0' ++ digits) = digitsValue digits := by
  rw [digitsValue_append, digitsValue_replicate_zero, Nat.zero_mul, Nat.zero_add]

/-- Zeros behind digits are factors of ten. -/
theorem digitsValue_append_zeros (digits : List Char) (count : Nat) :
    digitsValue (digits ++ List.replicate count '0') = digitsValue digits * Nat.pow 10 count := by
  rw [digitsValue_append, digitsValue_replicate_zero, List.length_replicate, Nat.add_zero]

/-- The digits of a number are ASCII digits. -/
theorem isDigit_of_mem_digits {number : Nat} {char : Char} (isDigit : char ∈ digits number) :
    char.isDigit = true :=
  Nat.isDigit_of_mem_toDigits (by decide) (by decide) isDigit

theorem digits_ne_nil (number : Nat) : digits number ≠ [] :=
  Nat.toDigits_ne_nil

/-- A number has at most as many digits as its bound has zeros. -/
theorem length_digits_le_iff {number count : Nat} (positive : 0 < count) :
    (digits number).length ≤ count ↔ number < Nat.pow 10 count :=
  Nat.length_toDigits_le_iff (by decide) positive

/-- The digits of a positive number do not begin with a zero. -/
theorem head?_digits_ne_zero {number : Nat} (positive : 0 < number) :
    (digits number).head? ≠ some '0' := by
  induction number using Nat.strongRecOn with
  | ind number inductionHypothesis =>
    unfold digits
    rw [Nat.toDigits_eq_if (by decide)]
    split
    next small =>
      intro zero
      have isZero : number.digitChar = '0' := by simpa using zero
      rw [Nat.digitChar_eq_zero] at isZero
      omega
    next large =>
      have shorter := inductionHypothesis (number / 10) (by omega) (by omega)
      rw [digits] at shorter
      rw [List.head?_append]
      cases front : (Nat.toDigits 10 (number / 10)).head? with
      | none => exact absurd (List.head?_eq_none_iff.1 front) Nat.toDigits_ne_nil
      | some char => rwa [front] at shorter

/-- The digits of a positive number are its significant digits and zeros behind them. -/
theorem significant_digits {number : Nat} (positive : 0 < number) :
    ∃ shown zeros, ((digits number).reverse.dropWhile (· = '0')).reverse = shown ∧
      digits number = shown ++ List.replicate zeros '0' ∧ shown ≠ [] ∧
      shown.head? ≠ some '0' := by
  have cut : digits number = ((digits number).reverse.dropWhile (· = '0')).reverse ++
      List.replicate ((digits number).reverse.takeWhile (· = '0')).length '0' := by
    have zeros : (digits number).reverse.takeWhile (· = '0') =
        List.replicate ((digits number).reverse.takeWhile (· = '0')).length '0' := by
      apply List.eq_replicate_of_mem
      intro char isIn
      exact of_decide_eq_true (List.all_eq_true.1 List.all_takeWhile char isIn)
    rw [← List.reverse_replicate, ← zeros, ← List.reverse_append,
      List.takeWhile_append_dropWhile, List.reverse_reverse]
  generalize ((digits number).reverse.dropWhile (· = '0')).reverse = shown at cut
  generalize ((digits number).reverse.takeWhile (· = '0')).length = zeros at cut
  have noZero := head?_digits_ne_zero positive
  refine ⟨shown, zeros, rfl, cut, ?_, ?_⟩
  · rintro rfl
    rw [List.nil_append] at cut
    cases zeros with
    | zero => exact digits_ne_nil number cut
    | succ zeros =>
      rw [cut] at noZero
      exact noZero rfl
  · intro zero
    rw [cut, List.head?_append, zero] at noZero
    exact noZero rfl

/-- The value of digits is below the power of ten that counts them. -/
theorem digitsValue_lt (digits : List Char) : digitsValue digits < Nat.pow 10 digits.length := by
  induction digits using List.reverseRecOn with
  | nil => exact Nat.one_pos
  | append_singleton digits digit inductionHypothesis =>
    have last : (Text.digitValue? digit).getD 0 ≤ 9 := by
      cases found : Text.digitValue? digit with
      | none => exact Nat.zero_le 9
      | some value => exact Text.digitValue?_le found
    have single : digitsValue [digit] = (Text.digitValue? digit).getD 0 := by
      simp [digitsValue]
    rw [digitsValue_append, single]
    simp only [List.length_append, List.length_singleton, Nat.pow_eq, pow_succ, pow_zero,
      one_mul] at inductionHypothesis ⊢
    omega

/-- The integer has few enough digits to be written. -/
def Writable (number : Int) : Prop :=
  number.natAbs < Nat.pow 10 digitLimit

/-- A number with few enough digits is written as its decimal digits. -/
theorem writeInteger_of_writable {number : Int} (writable : Writable number) :
    writeInteger number = .ok (decimal number) := by
  unfold Writable at writable
  simp only [writeInteger, writable, if_true]

/-- An integer of no more digits than the limit can be written. -/
theorem writable_of_digits {number : Int} {count : Nat}
    (digits : number.natAbs < Nat.pow 10 count) (few : count ≤ digitLimit) : Writable number := by
  have wider {limit : Nat} (few : count ≤ limit) : Nat.pow 10 count ≤ Nat.pow 10 limit :=
    Nat.pow_le_pow_right (by decide) few
  exact Nat.lt_of_lt_of_le digits (wider few)

/-- An integer of one digit can be written. -/
theorem writable_of_lt {number : Int} (small : number.natAbs < 10) : Writable number := by
  have digits : number.natAbs < Nat.pow 10 1 := small
  exact writable_of_digits digits (by decide)

end Retrace.Number
