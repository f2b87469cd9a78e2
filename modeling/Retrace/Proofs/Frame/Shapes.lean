import Retrace.Proofs.Frame.Openings

/-!
# Shapes of lines

What the keyword of a call site and the two forms without it ask of a line as a whole. The third
form needs an at sign, or a file that begins with the line; the fifth one needs a number at the end.
-/

namespace Retrace.Grammar

open Pattern

variable {offset : Nat} {taken rest : List Char}

/-- The keyword stands behind blanks and ends in a space. -/
theorem exists_of_spells_atKeyword (spells : atKeyword.Spells offset taken rest) :
    ∃ blanks letters, taken = blanks ++ (letters ++ [' ']) ∧
      (∀ char ∈ blanks, Text.isBlank char = true) ∧ letters.map Text.foldCase = ['a', 't'] := by
  obtain ⟨_, _, rfl, start, behind⟩ := spells_all_cons.1 spells
  obtain ⟨blanks, keyword, rfl, blank, written⟩ := spells_all_cons.1 behind
  obtain ⟨rfl, -⟩ := spells_atStart.1 start
  have folded : keyword.map Text.foldCase = ['a', 't'] ++ [' '] := spells_word.1 written
  obtain ⟨letters, _, rfl, isAt, ends⟩ := List.map_eq_append_iff.1 folded
  obtain ⟨space, rfl, isSpace⟩ := List.map_eq_singleton_iff.1 ends
  obtain rfl := Text.eq_of_foldCase isSpace (by decide)
  exact ⟨blanks, letters, rfl, spells_greedy.1 blank, isAt⟩

/-- What the third form finds at the end of the file that it knows by its end. -/
structure EndsBundle (text : List Char) : Prop where
  ends : ∃ name bundle place, text = name ++ (bundle ++ place) ∧ '@' ∉ name ∧
    bundle.map Text.foldCase = "bundle".toList ∧ ∃ numbers, IsPlace numbers [] place

/-- What the third form finds where it looks for a file. -/
def KnowsFile (offset : Nat) (text : List Char) : Prop :=
  (∃ opening path, text = opening ++ path ∧ geckoFileStart.Spells offset opening path) ∨
    EndsBundle text

/-- The file in the third form. -/
def geckoFile : Pattern :=
  capture .file (either (Pattern.all [geckoFileStart, anything])
    (Pattern.all [greedy (· ≠ '@'), word "bundle"]))

/-- The third form from the file on. -/
def geckoEnd : Pattern :=
  Pattern.all [geckoFile, optional (numberPart .line), optional (numberPart .column), lineEnd]

/-- From the file on, the third form finds a file that it knows. -/
theorem knowsFile_of_spells_geckoEnd (spells : geckoEnd.Spells offset taken rest) :
    KnowsFile offset (taken ++ rest) := by
  obtain ⟨file, _, rfl, captured, behind⟩ := spells_all_cons.1 spells
  obtain ⟨_, _, rfl, line, behind⟩ := spells_all_cons.1 behind
  obtain ⟨_, blanks, rfl, column, ends⟩ := spells_all_cons.1 behind
  obtain ⟨lines, rfl, -, isLine⟩ := numbers_of_spells_optional line
  obtain ⟨columns, rfl, -, isColumn⟩ := numbers_of_spells_optional column
  rcases spells_either.1 (spells_capture.1 captured) with page | bundle
  · obtain ⟨opening, path, rfl, start, -⟩ := spells_all_cons.1 page
    exact .inl ⟨opening, path ++ (lines.flatMap (':' :: ·) ++ (columns.flatMap (':' :: ·) ++
      (blanks ++ rest))), by simp, by simpa using start⟩
  · obtain ⟨before, word, rfl, noSign, isBundle⟩ := spells_all_cons.1 bundle
    refine .inr ⟨before, word, lines.flatMap (':' :: ·) ++ (columns.flatMap (':' :: ·) ++
      (blanks ++ rest)), by simp, ?_, spells_word.1 isBundle, lines ++ columns,
      List.forall_mem_append.2 ⟨isLine, isColumn⟩, blanks ++ rest, by simp,
      isBlank_of_spells_lineEnd ends⟩
    intro isIn
    exact absurd rfl (of_decide_eq_true (spells_greedy.1 noSign '@' isIn))

/-- In the third form a file stands at the very front or behind an at sign, and begins or ends as
the form asks. -/
theorem shape_of_spells_gecko (spells : geckoPattern.Spells 0 taken rest) :
    ∃ front behind, taken ++ rest = front ++ behind ∧
      (front = [] ∨ ∃ before, front = before ++ ['@']) ∧ KnowsFile front.length behind := by
  obtain ⟨_, _, rfl, start, behind⟩ := spells_all_cons.1 spells
  obtain ⟨rfl, -⟩ := spells_atStart.1 start
  obtain ⟨blanks, _, rfl, -, behind⟩ := spells_all_cons.1 behind
  obtain ⟨name, _, rfl, -, behind⟩ := spells_all_cons.1 behind
  obtain ⟨arguments, _, rfl, -, behind⟩ := spells_all_cons.1 behind
  obtain ⟨sign, ending, rfl, anchored, behind⟩ := spells_all_cons.1 behind
  have known : KnowsFile (blanks ++ name ++ arguments ++ sign).length (ending ++ rest) := by
    simpa [Nat.add_assoc] using knowsFile_of_spells_geckoEnd behind
  refine ⟨blanks ++ name ++ arguments ++ sign, ending ++ rest, by simp, ?_, known⟩
  rcases spells_either.1 anchored with atFront | isSign
  · obtain ⟨rfl, front⟩ := spells_atStart.1 atFront
    left
    simp only [List.length_nil, Nat.zero_add, Nat.add_eq_zero_iff, List.length_eq_zero_iff] at front
    simp [front]
  · obtain rfl := spells_char.1 isSign
    exact .inr ⟨_, rfl⟩

/-- In the fifth form a line ends in a number behind a colon. -/
theorem shape_of_spells_jsc (spells : jscPattern.Spells 0 taken rest) :
    ∃ front place numbers, taken ++ rest = front ++ place ∧ numbers ≠ [] ∧
      IsPlace numbers [] place := by
  obtain ⟨start, _, rfl, -, behind⟩ := spells_all_cons.1 spells
  obtain ⟨blanks, _, rfl, -, behind⟩ := spells_all_cons.1 behind
  obtain ⟨name, _, rfl, -, behind⟩ := spells_all_cons.1 behind
  obtain ⟨file, _, rfl, -, behind⟩ := spells_all_cons.1 behind
  obtain ⟨_, _, rfl, line, behind⟩ := spells_all_cons.1 behind
  obtain ⟨_, blanksBehind, rfl, column, ends⟩ := spells_all_cons.1 behind
  obtain ⟨digits, rfl, isLine⟩ := spells_numberPart.1 line
  obtain ⟨columns, rfl, -, isColumn⟩ := numbers_of_spells_optional column
  refine ⟨start ++ blanks ++ name ++ file, ':' :: digits ++ (columns.flatMap (':' :: ·) ++
    (blanksBehind ++ rest)), digits :: columns, by simp, List.cons_ne_nil _ _,
    List.forall_mem_cons.2 ⟨isLine, isColumn⟩, blanksBehind ++ rest, by simp,
    isBlank_of_spells_lineEnd ends⟩

/-- A place without a closing parenthesis has none of the characters that divide a line but colons. -/
theorem IsPlace.not_mem {char : Char} {numbers : List (List Char)} {place : List Char}
    (isPlace : IsPlace numbers [] place) (divides : char ∈ ['(', ')', '@', '[']) : char ∉ place := by
  have apart : ∀ char ∈ ['(', ')', '@', '['], char ≠ ':' ∧ char ∈ [':', '(', ')', '@', '['] ∧
      char ∈ [':', '(', ')', '@', '[', '\\', ' ', '\n'] := Text.forall_mem_of_all (by decide)
  obtain ⟨noColon, noBlank, noDigit⟩ := apart char divides
  obtain ⟨areNumbers, blanks, rfl, blank⟩ := isPlace
  simp only [List.nil_append, List.mem_append, List.mem_flatMap, not_or, not_exists, not_and]
  constructor
  · intro digits isOne isIn
    rcases List.mem_cons.1 isIn with colon | isIn
    · exact noColon colon
    · exact (areNumbers digits isOne).not_mem noDigit isIn
  · exact Text.not_mem_of_blank blank noBlank

end Retrace.Grammar
