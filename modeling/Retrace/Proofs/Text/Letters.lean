import Retrace.Text.Blank
import Retrace.Text.Caseless
import Retrace.Text.Digit

/-!
# Characters apart from each other

Folding a character changes nothing but letters, so a character that is no letter is found only as
itself. Colons and parentheses are neither blanks nor digits, which is what keeps the parts of a
stack line apart.
-/

namespace Retrace.Text

/-- What holds of all characters of a text is decided character by character. -/
theorem all_decide_iff {text : List Char} {kind : Char → Prop} [DecidablePred kind] :
    (text.all fun char => decide (kind char)) = true ↔ ∀ char ∈ text, kind char := by
  simp [List.all_eq_true]

/-- What is decided of each character of a text holds of them all. -/
theorem forall_mem_of_all {text : List Char} {kind : Char → Prop} [DecidablePred kind]
    (decided : (text.all fun char => decide (kind char)) = true) : ∀ char ∈ text, kind char :=
  all_decide_iff.1 decided

/-- Only letters come from another character. -/
theorem eq_of_foldCase {char folded : Char} (same : foldCase char = folded)
    (noLetter : folded.isLower = false) : char = folded := by
  subst same
  revert noLetter
  unfold foldCase
  split
  · decide
  · decide
  · decide
  · decide
  · intro noLetter
    unfold Char.toLower at noLetter ⊢
    split
    next capital =>
      rw [dif_pos capital] at noLetter
      have isLetter : 65 ≤ char.toNat ∧ char.toNat ≤ 90 := capital
      have lower : Char.isLower =
          fun letter => decide (letter.val ≥ 'a'.val) && decide (letter.val ≤ 'z'.val) := rfl
      simp [lower, UInt32.le_iff_toNat_le] at noLetter
      omega
    next => rfl

/-- A character that folding keeps is not in a text if it is not in the folded one. -/
theorem not_mem_of_map_foldCase {char : Char} {text folded : List Char}
    (same : text.map foldCase = folded) (kept : foldCase char = char) (absent : char ∉ folded) :
    char ∉ text := by
  intro isIn
  have isFolded : foldCase char ∈ text.map foldCase := List.mem_map_of_mem isIn
  rw [same, kept] at isFolded
  exact absent isFolded

/-- Folding keeps what is neither a capital nor one of the four characters beyond ASCII that stand for
a letter. -/
theorem foldCase_eq_self {char : Char} (common : char ∉ ['\u0130', '\u0131', '\u017f', '\u212a'])
    (noCapital : ¬ (65 ≤ char.toNat ∧ char.toNat ≤ 90)) : foldCase char = char := by
  unfold foldCase
  split
  · exact absurd (by decide) common
  · exact absurd (by decide) common
  · exact absurd (by decide) common
  · exact absurd (by decide) common
  · unfold Char.toLower
    exact dif_neg noCapital

/-- Folding keeps blanks. -/
theorem foldCase_of_isBlank {char : Char} (blank : isBlank char = true) : foldCase char = char := by
  apply foldCase_eq_self
  · have none : ∀ char ∈ ['\u0130', '\u0131', '\u017f', '\u212a'], isBlank char = false :=
      forall_mem_of_all (by decide)
    intro isOne
    rw [none char isOne] at blank
    cases blank
  · obtain ⟨range, isRange, low, high⟩ := Ranges.covers_iff.1 blank
    have outside : ∀ range ∈ blankRanges, range.2 < 65 ∨ 90 < range.1 := by decide
    have := outside range isRange
    omega

/-- Folding keeps digits. -/
theorem foldCase_of_isDigit {char : Char} (digit : isDigit char = true) : foldCase char = char := by
  apply foldCase_eq_self
  · have none : ∀ char ∈ ['\u0130', '\u0131', '\u017f', '\u212a'], isDigit char = false :=
      forall_mem_of_all (by decide)
    intro isOne
    rw [none char isOne] at digit
    cases digit
  · obtain ⟨value, found⟩ := Option.isSome_iff_exists.1 digit
    obtain ⟨start, isStart, -⟩ := Option.map_eq_some_iff.1 found
    have inRun := List.find?_some isStart
    have outside : ∀ start ∈ digitZeros, start + 9 < 65 ∨ 90 < start := by decide
    have := outside start (List.mem_of_find?_eq_some isStart)
    simp only [Bool.and_eq_true, decide_eq_true_eq] at inRun
    omega

/-- A blank is not one of the characters that divide a stack line. -/
theorem isBlank_eq_false_of_mem {char : Char} (divides : char ∈ [':', '(', ')', '@', '[']) :
    isBlank char = false := by
  have none : ∀ char ∈ [':', '(', ')', '@', '['], isBlank char = false :=
    forall_mem_of_all (by decide)
  exact none char divides

/-- Blanks have none of the characters that divide a stack line. -/
theorem not_mem_of_blank {char : Char} {text : List Char}
    (blank : ∀ char ∈ text, isBlank char = true) (divides : char ∈ [':', '(', ')', '@', '[']) :
    char ∉ text := by
  intro isIn
  have isBlank := blank char isIn
  rw [isBlank_eq_false_of_mem divides] at isBlank
  cases isBlank

/-- A text without blanks does not have any of them. -/
theorem not_mem_of_unspaced {char : Char} {text : List Char}
    (unspaced : ∀ char ∈ text, isBlank char = false) (blank : isBlank char = true) :
    char ∉ text := by
  intro isIn
  rw [unspaced char isIn] at blank
  cases blank

/-- A digit is not one of the characters that divide a stack line. -/
theorem isDigit_eq_false_of_mem {char : Char}
    (divides : char ∈ [':', '(', ')', '@', '[', '\\', ' ', '\n']) : isDigit char = false := by
  have none : ∀ char ∈ [':', '(', ')', '@', '[', '\\', ' ', '\n'], isDigit char = false :=
    forall_mem_of_all (by decide)
  exact none char divides

/-- A blank is not a digit. -/
theorem isDigit_eq_false_of_isBlank {char : Char} (blank : isBlank char = true) :
    isDigit char = false := by
  rw [← Bool.not_eq_true]
  intro digit
  obtain ⟨range, isRange, low, high⟩ := Ranges.covers_iff.1 blank
  obtain ⟨value, found⟩ := Option.isSome_iff_exists.1 digit
  obtain ⟨start, isStart, -⟩ := Option.map_eq_some_iff.1 found
  have inRun := List.find?_some isStart
  have apart : ∀ start ∈ digitZeros, ∀ range ∈ blankRanges,
      range.2 < start ∨ start + 9 < range.1 := by decide
  have := apart start (List.mem_of_find?_eq_some isStart) range isRange
  simp only [Bool.and_eq_true, decide_eq_true_eq] at inRun
  omega

/-- The digits of ASCII are decimal digits. -/
theorem isDigit_of_ascii {char : Char} (ascii : char.isDigit = true) : isDigit char = true := by
  have inRun : 0x30 ≤ char.toNat ∧ char.toNat ≤ 0x39 := by
    simpa [Char.isDigit, UInt32.le_iff_toNat_le] using ascii
  simp [isDigit, digitValue?, digitZeros, inRun]

end Retrace.Text
