import Retrace.Json.Reader
import Retrace.Proofs.Number.Shortest

/-!
# Written numbers read back

The text of a number has a sign, digits in front of a point and behind it, and an exponent. Reading
such a text gives the value that its parts denote, and the text that is written for a floating-point
number has parts that denote its shortest decimal.
-/

namespace Retrace.Json

open Number

/-- The character may stand inside a number, so that a number does not end in front of it. -/
def isNumberPart (char : Char) : Bool :=
  char.isDigit || char = '.' || char = 'e' || char = 'E'

/-- A number ends in front of these characters. -/
def EndsNumber (rest : List Char) : Prop :=
  ∀ char, rest.head? = some char → isNumberPart char = false

/-- All of the characters are ASCII digits. -/
def AllDigits (text : List Char) : Prop :=
  ∀ char ∈ text, char.isDigit = true

/-- The parts of a number's text. -/
structure Literal where
  negative : Bool
  whole : List Char
  fraction : List Char
  exponent : Option Int

namespace Literal

/-- The sign of a literal. -/
def sign (literal : Literal) : List Char :=
  if literal.negative then ['-'] else []

/-- The digits behind the point, with the point. -/
def fractionText (literal : Literal) : List Char :=
  if literal.fraction.isEmpty then [] else '.' :: literal.fraction

/-- The exponent with its letter. -/
def exponentText (literal : Literal) : List Char :=
  match literal.exponent with
  | none => []
  | some exponent => 'e' :: Binary64.exponentDigits exponent

/-- The text of a literal. -/
def text (literal : Literal) : List Char :=
  literal.sign ++ literal.whole ++ literal.fractionText ++ literal.exponentText

/-- The digits in front of the point are a zero alone or begin otherwise, and a literal without
digits behind the point has none there at all. -/
structure Proper (literal : Literal) : Prop where
  whole_digits : AllDigits literal.whole
  whole_start : literal.whole = ['0'] ∨ literal.whole ≠ [] ∧ literal.whole.head? ≠ some '0'
  fraction_digits : AllDigits literal.fraction

/-- The decimal digits of a literal, without its point. -/
def significand (literal : Literal) : Nat :=
  digitsValue (literal.whole ++ literal.fraction)

/-- The power of ten of the last digit. -/
def power (literal : Literal) : Int :=
  literal.exponent.getD 0 - literal.fraction.length

/-- There are digits in front of the point. -/
theorem Proper.whole_isEmpty {literal : Literal} (proper : literal.Proper) :
    literal.whole.isEmpty = false := by
  rcases proper.whole_start with zero | ⟨some, -⟩
  · rw [zero]
    rfl
  · exact List.isEmpty_eq_false_iff.2 some

end Literal

/-- The text begins with a digit behind at most a minus. -/
def BeginsNumber (text : List Char) : Prop :=
  ∃ (negative : Bool) (digit : Char) (more : List Char), digit.isDigit = true ∧
    text = (if negative then ['-'] else []) ++ digit :: more

theorem BeginsNumber.append {text : List Char} (begins : BeginsNumber text) (rest : List Char) :
    BeginsNumber (text ++ rest) := by
  obtain ⟨negative, digit, more, isDigit, rfl⟩ := begins
  exact ⟨negative, digit, more ++ rest, isDigit, by rw [List.append_assoc, List.cons_append]⟩

/-- The text of a literal begins with its sign and a digit. -/
theorem Literal.beginsNumber {literal : Literal} (proper : literal.Proper) :
    BeginsNumber literal.text := by
  obtain ⟨digit, more, whole⟩ := List.exists_cons_of_ne_nil
    (List.isEmpty_eq_false_iff.1 proper.whole_isEmpty)
  unfold Literal.text Literal.sign
  rw [whole]
  refine ⟨literal.negative, digit, more ++ literal.fractionText ++ literal.exponentText,
    proper.whole_digits digit (whole ▸ List.mem_cons_self), ?_⟩
  simp only [List.append_assoc, List.cons_append]

namespace Reader

theorem isDigit_of_endsNumber {rest : List Char} (ends : EndsNumber rest) :
    ∀ char, rest.head? = some char → char.isDigit = false := by
  intro char first
  have part := ends char first
  simp only [isNumberPart, Bool.or_eq_false_iff] at part
  exact part.1.1.1

/-- Digits are split off up to the first character that is none. -/
theorem spanDigits_append {digits rest : List Char} (all : AllDigits digits)
    (ends : ∀ char, rest.head? = some char → char.isDigit = false) :
    spanDigits (digits ++ rest) = (digits, rest) := by
  have stops : rest.takeWhile Char.isDigit = [] ∧ rest.dropWhile Char.isDigit = rest := by
    cases rest with
    | nil => exact ⟨rfl, rfl⟩
    | cons char rest =>
      have noDigit := ends char rfl
      simp [noDigit]
  unfold spanDigits
  rw [List.span_eq_takeWhile_dropWhile, List.takeWhile_append_of_pos all,
    List.dropWhile_append_of_pos all, stops.1, stops.2, List.append_nil]

/-- The digits in front of the point are split off. -/
theorem readWhole_append {whole rest : List Char} (all : AllDigits whole)
    (start : whole = ['0'] ∨ whole ≠ [] ∧ whole.head? ≠ some '0')
    (ends : ∀ char, rest.head? = some char → char.isDigit = false) :
    readWhole (whole ++ rest) = (whole, rest) := by
  rcases start with rfl | ⟨some, noZero⟩
  · rfl
  · rw [← spanDigits_append all ends]
    cases whole with
    | nil => exact absurd rfl some
    | cons char whole =>
      rw [List.cons_append]
      unfold readWhole
      split
      next isZero =>
        cases isZero
        exact absurd rfl noZero
      next => rfl

/-- The digits behind the point are split off, if there are any. -/
theorem readFraction_append {fraction rest : List Char} (all : AllDigits fraction)
    (ends : ∀ char, rest.head? = some char → char.isDigit = false ∧ char ≠ '.') :
    readFraction ((if fraction.isEmpty then [] else '.' :: fraction) ++ rest) =
      (fraction, rest) := by
  cases fraction with
  | nil =>
    simp only [List.isEmpty_nil, if_true, List.nil_append]
    unfold readFraction
    split
    next point => exact absurd rfl (ends '.' rfl).2
    next => rfl
  | cons digit fraction =>
    simp only [List.isEmpty_cons, Bool.false_eq_true, if_false, List.cons_append]
    have split : spanDigits (digit :: fraction ++ rest) = (digit :: fraction, rest) :=
      spanDigits_append all fun char first => (ends char first).1
    rw [List.cons_append] at split
    simp only [readFraction, split, List.isEmpty_cons, Bool.false_eq_true, if_false]

/-- A written exponent reads back. -/
theorem readExponent_append (exponent : Int) {rest : List Char}
    (ends : ∀ char, rest.head? = some char → char.isDigit = false) :
    readExponent ('e' :: Binary64.exponentDigits exponent ++ rest) = (some exponent, rest) := by
  have shown : ∃ digits, AllDigits digits ∧ digits ≠ [] ∧ digitsValue digits = exponent.natAbs ∧
      Binary64.exponentDigits exponent = (if exponent < 0 then '-' else '+') :: digits := by
    unfold Binary64.exponentDigits
    dsimp only
    by_cases short : (Nat.toDigits 10 exponent.natAbs).length < 2
    · rw [if_pos short]
      refine ⟨'0' :: Number.digits exponent.natAbs, ?_, List.cons_ne_nil _ _, ?_, rfl⟩
      · intro char isIn
        rcases List.mem_cons.1 isIn with rfl | isIn
        · rfl
        · exact isDigit_of_mem_digits isIn
      · have value := digitsValue_zeros_append 1 (Number.digits exponent.natAbs)
        rwa [digitsValue_digits] at value
    · rw [if_neg short]
      exact ⟨Number.digits exponent.natAbs, fun char isIn => isDigit_of_mem_digits isIn,
        digits_ne_nil _, digitsValue_digits _, rfl⟩
  obtain ⟨digits, all, some, value, same⟩ := shown
  have split := spanDigits_append all ends
  have nonempty : digits.isEmpty = false := List.isEmpty_eq_false_iff.2 some
  rw [same]
  by_cases negative : exponent < 0
  · rw [if_pos negative]
    simp only [readExponent, List.cons_append, splitSign, split, nonempty, Bool.false_eq_true,
      if_false, decide_true, Bool.true_or, if_true, value, signed]
    congr 2
    omega
  · rw [if_neg negative]
    simp only [readExponent, List.cons_append, splitSign, split, nonempty, Bool.false_eq_true,
      if_false, decide_true, Bool.true_or, if_true, value, signed]
    congr 2
    omega

/-- No exponent is read where none may begin. -/
theorem readExponent_of_endsNumber {rest : List Char} (ends : EndsNumber rest) :
    readExponent rest = (none, rest) := by
  cases rest with
  | nil => rfl
  | cons char rest =>
    have part := ends char rfl
    simp only [isNumberPart, Bool.or_eq_false_iff] at part
    simp [readExponent, part.1.2, part.2]

/-- What stands behind the digits of a literal's fraction is no digit and no point. -/
theorem exponentText_ends (literal : Literal) {rest : List Char} (ends : EndsNumber rest) :
    ∀ char, (literal.exponentText ++ rest).head? = some char →
      char.isDigit = false ∧ char ≠ '.' := by
  intro char first
  unfold Literal.exponentText at first
  split at first
  next =>
    have part := ends char first
    simp only [isNumberPart, Bool.or_eq_false_iff] at part
    exact ⟨part.1.1.1, by simpa using part.1.1.2⟩
  next =>
    cases first
    exact ⟨rfl, by decide⟩

/-- A sign is split off in front of a digit. -/
theorem splitMinus_sign (negative : Bool) {digit : Char} (isDigit : digit.isDigit = true)
    (rest : List Char) :
    splitMinus ((if negative then ['-'] else []) ++ digit :: rest) = (negative, digit :: rest) := by
  cases negative with
  | true => rfl
  | false =>
    simp only [Bool.false_eq_true, if_false, List.nil_append]
    unfold splitMinus
    split
    next minus =>
      cases minus
      exact absurd isDigit (by decide)
    next => rfl

/-- The parts of a literal are read one after the other. -/
theorem readParts {literal : Literal} (proper : literal.Proper) {rest : List Char}
    (ends : EndsNumber rest) :
    splitMinus (literal.text ++ rest) =
        (literal.negative,
          literal.whole ++ (literal.fractionText ++ (literal.exponentText ++ rest))) ∧
      readWhole (literal.whole ++ (literal.fractionText ++ (literal.exponentText ++ rest))) =
        (literal.whole, literal.fractionText ++ (literal.exponentText ++ rest)) ∧
      readFraction (literal.fractionText ++ (literal.exponentText ++ rest)) =
        (literal.fraction, literal.exponentText ++ rest) ∧
      readExponent (literal.exponentText ++ rest) = (literal.exponent, rest) := by
  have behind := exponentText_ends literal ends
  refine ⟨?_, readWhole_append proper.whole_digits proper.whole_start ?_,
    readFraction_append proper.fraction_digits behind, ?_⟩
  · obtain ⟨digit, more, whole⟩ := List.exists_cons_of_ne_nil
      (List.isEmpty_eq_false_iff.1 proper.whole_isEmpty)
    have isDigit := proper.whole_digits digit (whole ▸ List.mem_cons_self)
    simp only [Literal.text, Literal.sign, whole, List.append_assoc, List.cons_append]
    exact splitMinus_sign literal.negative isDigit _
  · intro char first
    unfold Literal.fractionText at first
    split at first
    next => exact (behind char first).1
    next =>
      cases first
      rfl
  · cases exponent : literal.exponent with
    | none =>
      simp only [Literal.exponentText, exponent, List.nil_append]
      exact readExponent_of_endsNumber ends
    | some exponent' =>
      simp only [Literal.exponentText, exponent]
      exact readExponent_append exponent' (isDigit_of_endsNumber ends)

/-- A literal with a fraction or an exponent is read as the number nearest to its value. -/
theorem readNumber_float {literal : Literal} (proper : literal.Proper)
    (floats : literal.fraction ≠ [] ∨ literal.exponent ≠ none) {rest : List Char}
    (ends : EndsNumber rest) :
    readNumber (literal.text ++ rest) =
      .ok (.float (Binary64.ofDecimal literal.negative literal.significand literal.power), rest) := by
  obtain ⟨minus, whole, fraction, exponent⟩ := readParts proper ends
  simp only [readNumber, minus, whole, fraction, exponent, proper.whole_isEmpty,
    Bool.false_eq_true, if_false]
  split
  next noFraction parts =>
    obtain ⟨noExponent, -⟩ := Prod.mk.inj parts
    rcases floats with some | some
    · exact absurd noFraction some
    · exact absurd noExponent some
  next parts _ =>
    obtain ⟨rfl, rfl⟩ := Prod.mk.inj parts
    rfl

/-- A literal without a fraction and an exponent is read as an integer. -/
theorem readNumber_integer {literal : Literal} (proper : literal.Proper)
    (noFraction : literal.fraction = []) (noExponent : literal.exponent = none)
    (readable : literal.whole.length ≤ digitLimit) {rest : List Char} (ends : EndsNumber rest) :
    readNumber (literal.text ++ rest) =
      .ok (.integer (signed literal.negative (digitsValue literal.whole)), rest) := by
  obtain ⟨minus, whole, fraction, exponent⟩ := readParts proper ends
  rw [noFraction] at fraction
  rw [noExponent] at exponent
  simp only [readNumber, minus, whole, fraction, exponent, proper.whole_isEmpty,
    Bool.false_eq_true, if_false, readDigits, if_pos readable]

end Reader

/-- Digits that begin otherwise than with a zero. -/
structure Significant (shown : List Char) : Prop where
  digits : AllDigits shown
  nonempty : shown ≠ []
  noZero : shown.head? ≠ some '0'

/-- The text, behind a sign, is that of a floating-point literal with a value. -/
def Denotes (negative : Bool) (text : List Char) (value : ℚ) : Prop :=
  ∃ literal : Literal, literal.Proper ∧ (literal.fraction ≠ [] ∨ literal.exponent ≠ none) ∧
    literal.negative = negative ∧ literal.text = (if negative then ['-'] else []) ++ text ∧
    (literal.significand : ℚ) * 10 ^ literal.power = value

/-- A literal may move its point behind its digits, over as many zeros as it adds to them. -/
theorem Literal.value_of_moved {literal : Literal} {shown : List Char} {power : Int} (moved : Nat)
    (shifted : literal.significand = digitsValue shown * 10 ^ moved)
    (balanced : literal.power + moved = power) :
    (literal.significand : ℚ) * 10 ^ literal.power = digitsValue shown * 10 ^ power := by
  rw [shifted, ← balanced, zpow_add₀ (by norm_num), zpow_natCast]
  push_cast
  ring

section Forms

variable {shown : List Char} (significant : Significant shown) (negative : Bool) {power : Int}
include significant

/-- Digits behind the point, with zeros in front of them. -/
theorem denotes_fractional (fractional : power < 0) :
    Denotes negative ('0' :: '.' :: List.replicate (power.natAbs - 1) '0' ++ shown)
      (digitsValue shown * 10 ^ (power + 1 - shown.length)) := by
  refine ⟨⟨negative, ['0'], List.replicate (power.natAbs - 1) '0' ++ shown, none⟩,
    ⟨?_, .inl rfl, ?_⟩, .inl ?_, rfl, ?_, Literal.value_of_moved 0 ?_ ?_⟩
  · intro char isIn
    rw [List.mem_singleton.1 isIn]
    rfl
  · intro char isIn
    rcases List.mem_append.1 isIn with isIn | isIn
    · rw [List.eq_of_mem_replicate isIn]
      rfl
    · exact significant.digits char isIn
  · exact fun empty => significant.nonempty (List.append_eq_nil_iff.1 empty).2
  · simp [Literal.text, Literal.sign, Literal.fractionText, Literal.exponentText,
      significant.nonempty]
  · have front := digitsValue_zeros_append power.natAbs shown
    have zeros : '0' :: List.replicate (power.natAbs - 1) '0' =
        List.replicate power.natAbs '0' := by
      rw [← List.replicate_succ]
      congr 1
      omega
    simp only [Literal.significand, List.singleton_append, ← List.cons_append, zeros, front]
    omega
  · simp only [Literal.power, Option.getD_none, List.length_append, List.length_replicate]
    omega

/-- Digits in front of the point, with zeros behind them. -/
theorem denotes_whole (nonnegative : 0 ≤ power) (whole : shown.length ≤ power.natAbs + 1) :
    Denotes negative (shown ++ List.replicate (power.natAbs + 1 - shown.length) '0' ++ ['.', '0'])
      (digitsValue shown * 10 ^ (power + 1 - shown.length)) := by
  refine ⟨⟨negative, shown ++ List.replicate (power.natAbs + 1 - shown.length) '0', ['0'], none⟩,
    ⟨?_, .inr ⟨?_, ?_⟩, ?_⟩, .inl (List.cons_ne_nil _ _), rfl, ?_,
    Literal.value_of_moved (power.natAbs + 1 - shown.length + 1) ?_ ?_⟩
  · intro char isIn
    rcases List.mem_append.1 isIn with isIn | isIn
    · exact significant.digits char isIn
    · rw [List.eq_of_mem_replicate isIn]
      rfl
  · exact fun empty => significant.nonempty (List.append_eq_nil_iff.1 empty).1
  · rw [List.head?_append_of_ne_nil _ significant.nonempty]
    exact significant.noZero
  · intro char isIn
    rw [List.mem_singleton.1 isIn]
    rfl
  · simp [Literal.text, Literal.sign, Literal.fractionText, Literal.exponentText]
  · have behind := digitsValue_append_zeros shown (power.natAbs + 1 - shown.length + 1)
    rw [List.replicate_succ', ← List.append_assoc, Nat.pow_eq] at behind
    exact behind
  · simp only [Literal.power, Option.getD_none, List.length_singleton]
    omega

/-- Digits on both sides of the point. -/
theorem denotes_mixed (nonnegative : 0 ≤ power) (longer : power.natAbs + 1 < shown.length) :
    Denotes negative
      (shown.take (power.natAbs + 1) ++ '.' :: shown.drop (power.natAbs + 1))
      (digitsValue shown * 10 ^ (power + 1 - shown.length)) := by
  have left : shown.drop (power.natAbs + 1) ≠ [] := by
    rw [Ne, List.drop_eq_nil_iff]
    omega
  refine ⟨⟨negative, shown.take (power.natAbs + 1), shown.drop (power.natAbs + 1), none⟩,
    ⟨fun char isIn => significant.digits char (List.mem_of_mem_take isIn), .inr ⟨?_, ?_⟩,
      fun char isIn => significant.digits char (List.mem_of_mem_drop isIn)⟩, .inl left, rfl, ?_,
    Literal.value_of_moved 0 ?_ ?_⟩
  · rw [← List.length_pos_iff, List.length_take]
    omega
  · rw [List.head?_take, if_neg (Nat.succ_ne_zero _)]
    exact significant.noZero
  · simp only [Literal.text, Literal.sign, Literal.fractionText, Literal.exponentText,
      List.append_nil, List.append_assoc]
    rw [if_neg (fun empty => left (List.isEmpty_iff.1 empty))]
  · simp only [Literal.significand, List.take_append_drop, Nat.pow_zero, Nat.mul_one]
  · simp only [Literal.power, Option.getD_none, List.length_drop]
    omega

/-- A digit in front of the point, and an exponent. -/
theorem denotes_scientific :
    Denotes negative
      (shown.take 1 ++ (if (shown.drop 1).isEmpty then [] else '.' :: shown.drop 1) ++
        'e' :: Binary64.exponentDigits power)
      (digitsValue shown * 10 ^ (power + 1 - shown.length)) := by
  have size : 0 < shown.length := List.length_pos_iff.2 significant.nonempty
  refine ⟨⟨negative, shown.take 1, shown.drop 1, some power⟩,
    ⟨fun char isIn => significant.digits char (List.mem_of_mem_take isIn), .inr ⟨?_, ?_⟩,
      fun char isIn => significant.digits char (List.mem_of_mem_drop isIn)⟩,
    .inr (Option.some_ne_none _), rfl, ?_, Literal.value_of_moved 0 ?_ ?_⟩
  · rw [← List.length_pos_iff, List.length_take]
    omega
  · rw [List.head?_take, if_neg Nat.one_ne_zero]
    exact significant.noZero
  · simp only [Literal.text, Literal.sign, Literal.fractionText, Literal.exponentText,
      List.append_assoc]
  · simp only [Literal.significand, List.take_append_drop, Nat.pow_zero, Nat.mul_one]
  · simp only [Literal.power, Option.getD_some, List.length_drop]
    omega

end Forms

/-- The text of a decimal denotes it. -/
theorem writeDecimal_denotes (negative : Bool) {decimal : Binary64.Decimal}
    (positive : 0 < decimal.digits) :
    Denotes negative (Binary64.writeDecimal decimal) decimal.value := by
  obtain ⟨shown, zeros, cut, all, nonempty, noZero⟩ := significant_digits positive
  have significant : Significant shown :=
    ⟨fun char isIn => isDigit_of_mem_digits (all ▸ List.mem_append_left _ isIn), nonempty, noZero⟩
  have length : (digits decimal.digits).length = shown.length + zeros := by
    rw [all, List.length_append, List.length_replicate]
  unfold Binary64.writeDecimal
  dsimp only
  rw [← digits, length, cut]
  generalize placed : decimal.exponent + ((shown.length + zeros : Nat) : Int) - 1 = power
  have value : decimal.value = digitsValue shown * 10 ^ (power + 1 - shown.length) := by
    have exponent : power + 1 - shown.length = decimal.exponent + zeros := by omega
    unfold Binary64.Decimal.value
    rw [exponent, zpow_add₀ (by norm_num), zpow_natCast, ← digitsValue_digits decimal.digits, all,
      digitsValue_append_zeros, Nat.pow_eq]
    push_cast
    ring
  rw [value]
  by_cases positional : (decide (Binary64.positionalLeast ≤ power) &&
      decide (power < Binary64.positionalLimit)) = true
  · rw [if_pos positional]
    by_cases fractional : power < 0
    · rw [if_pos fractional]
      exact denotes_fractional significant negative fractional
    · rw [if_neg fractional]
      by_cases whole : shown.length ≤ power.natAbs + 1
      · rw [List.take_of_length_le whole, List.drop_of_length_le whole]
        exact denotes_whole significant negative (not_lt.1 fractional) whole
      · have longer : power.natAbs + 1 < shown.length := not_le.1 whole
        have left : ¬ (shown.drop (power.natAbs + 1)).isEmpty = true := by
          rw [List.isEmpty_iff, List.drop_eq_nil_iff]
          omega
        rw [List.length_take_of_le longer.le, Nat.sub_self, List.replicate_zero, List.append_nil,
          if_neg left]
        exact denotes_mixed significant negative (not_lt.1 fractional) longer
  · rw [if_neg positional]
    exact denotes_scientific significant negative

/-- A finite number, also a zero of either sign, is written as a literal that is read as it. -/
theorem write_literal (negative : Bool) {significand : Nat} {exponent : Int}
    (fits : Binary64.Fits significand exponent) (nanWord infinityWord : String) :
    ∃ literal : Literal, literal.Proper ∧ (literal.fraction ≠ [] ∨ literal.exponent ≠ none) ∧
      (Binary64.finite negative significand exponent).write nanWord infinityWord = literal.text ∧
      Binary64.ofDecimal literal.negative literal.significand literal.power =
        .finite negative significand exponent := by
  unfold Binary64.write
  dsimp only
  by_cases zero : significand = 0
  · rw [if_pos zero]
    have least : exponent = Binary64.leastExponent := by
      apply fits.full.resolve_left
      intro full
      rw [zero] at full
      exact absurd full (by decide)
    have zeros : AllDigits ['0'] := by
      intro char isIn
      rw [List.mem_singleton.1 isIn]
      rfl
    refine ⟨⟨negative, ['0'], ['0'], none⟩, ⟨zeros, .inl rfl, zeros⟩,
      .inl (List.cons_ne_nil _ _), ?_, ?_⟩
    · simp [Literal.text, Literal.sign, Literal.fractionText, Literal.exponentText]
    · rw [zero, least]
      rfl
  · rw [if_neg zero]
    have positive := Nat.pos_of_ne_zero zero
    obtain ⟨literal, proper, floats, sign, text, value⟩ :=
      writeDecimal_denotes negative (Binary64.shortest_digits_pos fits positive)
    refine ⟨literal, proper, floats, text.symm, ?_⟩
    rw [sign]
    exact Binary64.ofDecimal_shortest negative fits positive value

/-- An integer is written as a literal that is read as it. -/
theorem decimal_literal {number : Int} (writable : Writable number) :
    ∃ literal : Literal, literal.Proper ∧ literal.fraction = [] ∧ literal.exponent = none ∧
      literal.whole.length ≤ digitLimit ∧ decimal number = literal.text ∧
      signed literal.negative (digitsValue literal.whole) = number := by
  have start : digits number.natAbs = ['0'] ∨
      digits number.natAbs ≠ [] ∧ (digits number.natAbs).head? ≠ some '0' := by
    rcases Nat.eq_zero_or_pos number.natAbs with zero | positive
    · rw [zero]
      exact .inl rfl
    · exact .inr ⟨digits_ne_nil _, head?_digits_ne_zero positive⟩
  refine ⟨⟨number < 0, digits number.natAbs, [], none⟩,
    ⟨fun char isIn => isDigit_of_mem_digits isIn, start,
      fun char isIn => absurd isIn List.not_mem_nil⟩, rfl, rfl, ?_, ?_, ?_⟩
  · exact (length_digits_le_iff (by decide)).2 writable
  · unfold decimal
    split
    next negative =>
      simp [Literal.text, Literal.sign, Literal.fractionText, Literal.exponentText, negative]
    next nonnegative =>
      simp [Literal.text, Literal.sign, Literal.fractionText, Literal.exponentText, nonnegative]
  · rw [digitsValue_digits]
    by_cases negative : number < 0
    · simp only [signed, negative, decide_true, if_true]
      omega
    · simp only [signed, negative, decide_false, Bool.false_eq_true, if_false]
      omega

namespace Reader

/-- A finite number reads back, also a zero of either sign. -/
theorem readNumber_write (negative : Bool) {significand : Nat} {exponent : Int}
    (fits : Binary64.Fits significand exponent) (nanWord infinityWord : String)
    {rest : List Char} (ends : EndsNumber rest) :
    readNumber ((Binary64.finite negative significand exponent).write nanWord infinityWord ++
      rest) = .ok (.float (.finite negative significand exponent), rest) := by
  obtain ⟨literal, proper, floats, text, value⟩ :=
    write_literal negative fits nanWord infinityWord
  rw [text, readNumber_float proper floats ends, value]

/-- An integer reads back, if it has no more digits than the limit. -/
theorem readNumber_decimal {number : Int} (writable : Writable number) {rest : List Char}
    (ends : EndsNumber rest) :
    readNumber (decimal number ++ rest) = .ok (.integer number, rest) := by
  obtain ⟨literal, proper, noFraction, noExponent, readable, text, value⟩ :=
    decimal_literal writable
  rw [text, readNumber_integer proper noFraction noExponent readable ends, value]

end Reader

end Retrace.Json
