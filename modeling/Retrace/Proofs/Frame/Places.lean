import Retrace.Frame.Grammar
import Retrace.Proofs.Pattern.Preference
import Retrace.Proofs.Text.Letters

/-!
# Places behind a file

The forms agree on what follows the file: a line, a column and blanks. Only some of them need the line,
and only in those of call sites a parenthesis may close the place. A file may itself contain colons and
digits. It ends where it does because no more than two numbers can be split off a line.
-/

namespace Retrace.Grammar

open Pattern

variable {α : Type} {part : Part} {offset : Nat} {taken rest : List Char} {captures : Captures}

/-- A text without blanks does not end its line. -/
theorem inLine_of_unspaced {text : List Char} (unspaced : ∀ char ∈ text, Text.isBlank char = false) :
    ∀ char ∈ text, isInLine char = true := by
  intro char isIn
  refine decide_eq_true fun isFeed => ?_
  subst isFeed
  exact Text.not_mem_of_unspaced unspaced (by decide) isIn

/-- The digits of a written number. -/
structure IsNumber (digits : List Char) : Prop where
  nonempty : digits ≠ []
  digits : ∀ char ∈ digits, Text.isDigit char = true

instance (digits : List Char) : Decidable (IsNumber digits) :=
  decidable_of_iff (digits ≠ [] ∧ (digits.all Text.isDigit) = true)
    ⟨fun ⟨nonempty, areDigits⟩ => ⟨nonempty, List.all_eq_true.1 areDigits⟩,
    fun isNumber => ⟨isNumber.nonempty, List.all_eq_true.2 isNumber.digits⟩⟩

/-- A number has none of the characters that divide a stack line. -/
theorem IsNumber.not_mem {digits : List Char} {char : Char} (isNumber : IsNumber digits)
    (divides : char ∈ [':', '(', ')', '@', '[', '\\', ' ', '\n']) : char ∉ digits := by
  intro isIn
  have isDigit := isNumber.digits char isIn
  rw [Text.isDigit_eq_false_of_mem divides] at isDigit
  cases isDigit

/-- A number does not end its line. -/
theorem IsNumber.inLine {digits : List Char} (isNumber : IsNumber digits) :
    ∀ char ∈ digits, isInLine char = true := by
  intro char isIn
  refine decide_eq_true fun isFeed => ?_
  subst isFeed
  exact isNumber.not_mem (by decide) isIn

theorem spells_numberPart : (numberPart part).Spells offset taken rest ↔
    ∃ digits, taken = ':' :: digits ∧ IsNumber digits := by
  rw [numberPart, spells_all_cons]
  constructor
  · rintro ⟨_, digits, rfl, colon, number⟩
    obtain rfl := spells_char.1 colon
    obtain ⟨nonempty, isDigits⟩ := spells_greedyOne.1 (spells_capture.1 number)
    exact ⟨digits, rfl, nonempty, isDigits⟩
  · rintro ⟨digits, rfl, nonempty, isDigits⟩
    exact ⟨[':'], digits, rfl, spells_char.2 rfl,
      .capture (spells_greedyOne.2 ⟨nonempty, isDigits⟩)⟩

theorem spells_lineEnd : lineEnd.Spells offset taken rest ↔
    (∀ char ∈ taken, Text.isBlank char = true) ∧ (rest = [] ∨ rest = ['\n']) := by
  rw [lineEnd, spells_all_cons]
  constructor
  · rintro ⟨front, _, rfl, blank, ends⟩
    obtain ⟨rfl, last⟩ := spells_atEnd.1 ends
    rw [List.append_nil]
    exact ⟨spells_greedy.1 blank, last⟩
  · rintro ⟨blank, last⟩
    exact ⟨taken, [], by rw [List.append_nil], .greedy blank, .atEnd last⟩

/-- A number behind a colon is captured as far as its digits go. -/
theorem run_numberPart {next : Continuation α} {result : α} {digits : List Char}
    (isNumber : IsNumber digits) (stops : ∀ char ∈ rest.head?, Text.isDigit char = false)
    (here : next ⟨offset + 1 + digits.length, rest,
      captures.set part ⟨offset + 1, offset + 1 + digits.length⟩⟩ = some result) :
    (numberPart part).run ⟨offset, ':' :: (digits ++ rest), captures⟩ next = some result := by
  have unfolded : (numberPart part).run ⟨offset, ':' :: (digits ++ rest), captures⟩ next =
      (char ':').run ⟨offset, ':' :: (digits ++ rest), captures⟩
        fun middle => Pattern.digits.run middle
          fun after => next (after.capture part middle.offset) := rfl
  rw [unfolded, run_char]
  exact run_greedyOne_of_stop isNumber.nonempty isNumber.digits stops here

/-- How a form asks for the line of a place. -/
inductive AsksLine : Pattern → Prop where
  | needed : AsksLine (numberPart .line)
  | wanted : AsksLine (optional (numberPart .line))

/-- What follows the line of a place. -/
def columnEnd : Pattern :=
  Pattern.all [optional (numberPart .column), optional (char ')'), lineEnd]

/-- What follows the line of a place that is not in parentheses. -/
def openColumnEnd : Pattern :=
  Pattern.all [optional (numberPart .column), lineEnd]

/-- What a form asks for behind the line of a place, and what closes the places that are written for
it. A parenthesis may be left out. -/
inductive EndsPlace : Pattern → List Char → Prop where
  | closed : EndsPlace columnEnd [')']
  | left : EndsPlace columnEnd []
  | unclosed : EndsPlace openColumnEnd []

theorem EndsPlace.pattern {behind : Pattern} {closing : List Char} (ends : EndsPlace behind closing) :
    behind = columnEnd ∨ behind = openColumnEnd := by
  cases ends with
  | closed => exact .inl rfl
  | left => exact .inl rfl
  | unclosed => exact .inr rfl

/-- Numbers behind colons, what closes them, and blanks. -/
structure IsPlace (numbers : List (List Char)) (closing text : List Char) : Prop where
  areNumbers : ∀ digits ∈ numbers, IsNumber digits
  ends : ∃ blanks, text = numbers.flatMap (':' :: ·) ++ (closing ++ blanks) ∧
    ∀ char ∈ blanks, Text.isBlank char = true

/-- What can be left out is one number or none. -/
theorem numbers_of_spells_optional (spells : (optional (numberPart part)).Spells offset taken rest) :
    ∃ numbers : List (List Char), taken = numbers.flatMap (':' :: ·) ∧ numbers.length ≤ 1 ∧
      ∀ digits ∈ numbers, IsNumber digits := by
  rcases spells_optional.1 spells with number | rfl
  · obtain ⟨digits, rfl, isNumber⟩ := spells_numberPart.1 number
    exact ⟨[digits], by simp, Nat.le_refl _, List.forall_mem_singleton.2 isNumber⟩
  · exact ⟨[], rfl, Nat.zero_le _, by simp⟩

/-- The blanks that end a line are all that is left of it. -/
theorem isBlank_of_spells_lineEnd (spells : lineEnd.Spells offset taken rest) :
    ∀ char ∈ taken ++ rest, Text.isBlank char = true := by
  obtain ⟨blank, last⟩ := spells_lineEnd.1 spells
  refine List.forall_mem_append.2 ⟨blank, ?_⟩
  rcases last with rfl | rfl
  · simp
  · exact List.forall_mem_singleton.2 (by decide)

theorem AsksLine.spells_optional {lineNumber : Pattern} (asks : AsksLine lineNumber)
    (spells : lineNumber.Spells offset taken rest) :
    (optional (numberPart .line)).Spells offset taken rest := by
  cases asks with
  | needed => exact .left spells
  | wanted => exact spells

/-- Whatever a form spells behind a file is a place of at most two numbers. -/
theorem isPlace_of_spells {lineNumber behind : Pattern} {closing : List Char}
    (asks : AsksLine lineNumber) (ends : EndsPlace behind closing)
    (spells : (seq lineNumber behind).Spells offset taken rest) :
    ∃ numbers closing, numbers.length ≤ 2 ∧ ':' ∉ closing ∧
      IsPlace numbers closing (taken ++ rest) := by
  obtain ⟨_, _, rfl, line, behind⟩ := spells_seq.1 spells
  obtain ⟨lines, rfl, oneLine, isLine⟩ := numbers_of_spells_optional (asks.spells_optional line)
  have few {columns : List (List Char)} (oneColumn : columns.length ≤ 1) :
      (lines ++ columns).length ≤ 2 := by
    rw [List.length_append]
    omega
  rcases ends.pattern with rfl | rfl
  · obtain ⟨_, _, rfl, column, behind⟩ := spells_all_cons.1 behind
    obtain ⟨closing, blanks, rfl, closed, ends⟩ := spells_all_cons.1 behind
    obtain ⟨columns, rfl, oneColumn, isColumn⟩ := numbers_of_spells_optional column
    refine ⟨lines ++ columns, closing, few oneColumn, ?_, List.forall_mem_append.2 ⟨isLine, isColumn⟩,
      blanks ++ rest, by simp, isBlank_of_spells_lineEnd ends⟩
    rcases spells_optional.1 closed with parenthesis | rfl
    · rw [spells_char.1 parenthesis]
      decide
    · decide
  · obtain ⟨_, blanks, rfl, column, ends⟩ := spells_all_cons.1 behind
    obtain ⟨columns, rfl, oneColumn, isColumn⟩ := numbers_of_spells_optional column
    exact ⟨lines ++ columns, [], few oneColumn, List.not_mem_nil,
      List.forall_mem_append.2 ⟨isLine, isColumn⟩, blanks ++ rest, by simp,
      isBlank_of_spells_lineEnd ends⟩

/-- Numbers behind colons have as many colons as there are numbers. -/
theorem count_numbers {numbers : List (List Char)} (isNumber : ∀ digits ∈ numbers, IsNumber digits) :
    (numbers.flatMap (':' :: ·)).count ':' = numbers.length := by
  induction numbers with
  | nil => rfl
  | cons digits numbers inductionHypothesis =>
    obtain ⟨first, others⟩ := List.forall_mem_cons.1 isNumber
    have noColon : digits.count ':' = 0 := List.count_eq_zero.2 (first.not_mem (by decide))
    rw [List.flatMap_cons, List.count_append, List.count_cons_self, noColon,
      inductionHypothesis others, List.length_cons]
    omega

/-- The line and the column behind a file, and what closes the place. -/
def placeUpTo (closing line column : List Char) : List Char :=
  ':' :: (line ++ ':' :: (column ++ closing))

/-- The line and the column behind a file, as a written frame has them. -/
def placeText (line column : List Char) : List Char :=
  ':' :: (line ++ ':' :: (column ++ [')']))

/-- Nothing stands in front of a line and a column and belongs to a place of two numbers. -/
theorem not_isPlace {late line column closing others : List Char} {numbers : List (List Char)}
    (nonempty : late ≠ []) (few : numbers.length ≤ 2) (noColon : ':' ∉ others) :
    ¬ IsPlace numbers others (late ++ placeUpTo closing line column) := by
  rintro ⟨isNumber, blanks, cut, blank⟩
  have noMore : (others ++ blanks).count ':' = 0 := by
    rw [List.count_eq_zero, List.mem_append, not_or]
    exact ⟨noColon, Text.not_mem_of_blank blank (by decide)⟩
  have colons := congrArg (List.count ':') cut
  rw [List.count_append, List.count_append, count_numbers isNumber, noMore, placeUpTo,
    List.count_cons_self, List.count_append, List.count_cons_self] at colons
  obtain ⟨first, late, rfl⟩ := List.exists_cons_of_ne_nil nonempty
  cases numbers with
  | nil =>
    rw [List.length_nil] at colons
    omega
  | cons digits numbers =>
    rw [List.flatMap_cons, List.cons_append, List.cons_append, List.cons_append] at cut
    obtain ⟨rfl, -⟩ := List.cons_eq_cons.1 cut
    rw [List.count_cons_self] at colons
    omega

/-- No form goes on behind a file that ends in front of its place. -/
theorem run_place_eq_none {late line column closing : List Char} {lineNumber behind : Pattern}
    {closed : List Char} {next : Continuation α} (asks : AsksLine lineNumber)
    (ends : EndsPlace behind closed) (nonempty : late ≠ []) :
    (seq lineNumber behind).run ⟨offset, late ++ placeUpTo closing line column, captures⟩ next =
      none := by
  refine run_eq_none fun taken rest cut spells => ?_
  obtain ⟨numbers, others, few, noColon, isPlace⟩ := isPlace_of_spells asks ends spells
  rw [← cut] at isPlace
  exact not_isPlace nonempty few noColon isPlace

/-- The captures of a whole match. -/
def found : Continuation Captures := fun cursor => some cursor.captures

section Written

variable {line column closing : List Char} {behind : Pattern}

/-- A column behind a line is captured, and the line ends behind it. -/
theorem run_columnEnd (ends : EndsPlace behind closing) (isColumn : IsNumber column) :
    behind.run ⟨offset, ':' :: (column ++ closing), captures⟩ found =
      some (captures.set .column ⟨offset + 1, offset + 1 + column.length⟩) := by
  cases ends with
  | closed =>
    have unfolded : columnEnd.run ⟨offset, ':' :: (column ++ [')']), captures⟩ found =
        (optional (numberPart .column)).run ⟨offset, ':' :: (column ++ [')']), captures⟩
          fun middle => (optional (char ')')).run middle fun after => lineEnd.run after found := rfl
    rw [unfolded]
    refine run_optional_of_some (run_numberPart isColumn ?_ ?_)
    · simp [Text.isDigit_eq_false_of_mem]
    · refine run_optional_of_some ?_
      rw [run_char]
      rfl
  | left =>
    have unfolded : columnEnd.run ⟨offset, ':' :: (column ++ []), captures⟩ found =
        (optional (numberPart .column)).run ⟨offset, ':' :: (column ++ []), captures⟩
          fun middle => (optional (char ')')).run middle fun after => lineEnd.run after found := rfl
    rw [unfolded]
    refine run_optional_of_some (run_numberPart isColumn (by simp) ?_)
    rw [run_optional_of_none (run_char_of_not_mem List.not_mem_nil)]
    rfl
  | unclosed =>
    have unfolded : openColumnEnd.run ⟨offset, ':' :: (column ++ []), captures⟩ found =
        (optional (numberPart .column)).run ⟨offset, ':' :: (column ++ []), captures⟩
          fun middle => lineEnd.run middle found := rfl
    rw [unfolded]
    refine run_optional_of_some (run_numberPart isColumn ?_ rfl)
    simp

/-- A line and a column are captured where they are written, also if the line is not needed. -/
theorem run_place {lineNumber : Pattern} (asks : AsksLine lineNumber)
    (ends : EndsPlace behind closing) (isLine : IsNumber line) (isColumn : IsNumber column) :
    (seq lineNumber behind).run ⟨offset, placeUpTo closing line column, captures⟩ found =
      some ((captures.set .line ⟨offset + 1, offset + 1 + line.length⟩).set .column
        ⟨offset + line.length + 2, offset + line.length + 2 + column.length⟩) := by
  have number : (numberPart .line).run ⟨offset, placeUpTo closing line column, captures⟩
      (fun middle => behind.run middle found) =
      some ((captures.set .line ⟨offset + 1, offset + 1 + line.length⟩).set .column
        ⟨offset + line.length + 2, offset + line.length + 2 + column.length⟩) := by
    refine run_numberPart isLine ?_ ?_
    · simp [Text.isDigit_eq_false_of_mem]
    · have moved : offset + 1 + line.length + 1 = offset + line.length + 2 := by omega
      rw [run_columnEnd ends isColumn, moved]
  cases asks with
  | needed => exact number
  | wanted => exact run_optional_of_some number

end Written

end Retrace.Grammar
