import Mathlib.Data.List.Forall2
import Retrace.Frame.Reader
import Retrace.Proofs.Frame.Lines
import Retrace.Proofs.Pattern.Captured
import Retrace.Proofs.Text.Lines

/-!
# Numbers of frames

Whatever a grammar captures stands in the line, also where the real place of evaluated code is found
inside the file. What it captures as a line or a column are decimal digits one behind the other. They
are read unless there are too many of them, and what is read can be written again.
-/

namespace Retrace

open Number (NumeralFault)

/-- The characters are decimal digits that stand in a text one behind the other. -/
structure IsRun (text digits : List Char) : Prop where
  inside : digits <:+: text
  digits : ∀ char ∈ digits, Text.isDigit char = true

theorem IsRun.widen {part text digits : List Char} (isRun : IsRun part digits)
    (inside : part <:+: text) : IsRun text digits :=
  ⟨isRun.inside.trans inside, isRun.digits⟩

namespace WrittenFrame

/-- The method and the file stand in the text, and the numbers are runs of digits there. -/
structure Within (text : List Char) (written : WrittenFrame) : Prop where
  method : written.method <:+: text
  file : written.file <:+: text
  line : ∀ digits ∈ written.line, IsRun text digits
  column : ∀ digits ∈ written.column, IsRun text digits

/-- The pattern captures no other characters than digits of either number. -/
def CapturesDigits (pattern : Pattern) : Prop :=
  ∀ part ∈ [Part.line, .column], pattern.CapturesOnly part (Text.isDigit · = true)

/-- What is captured as either number of a text are digits. -/
def AreDigits (text : List Char) (captures : Captures) : Prop :=
  ∀ part ∈ [Part.line, .column], ∀ span ∈ captures part, ∀ char ∈ span.of text,
    Text.isDigit char = true

theorem within_ofCaptures {text : List Char} {captures : Captures}
    (areDigits : AreDigits text captures) : (ofCaptures text captures).Within text := by
  have isRun (part : Part) (isNumber : part ∈ [Part.line, .column]) :
      ∀ digits ∈ captures.text? part text, IsRun text digits := by
    intro digits isCaptured
    obtain ⟨span, isSpan, rfl⟩ := Option.map_eq_some_iff.1 isCaptured
    exact ⟨span.of_infix text, areDigits part isNumber span isSpan⟩
  have stands (part : Part) : (captures.text? part text).getD [] <:+: text := by
    cases isCaptured : captures.text? part text with
    | none => exact List.nil_infix
    | some captured =>
      obtain ⟨span, -, rfl⟩ := Option.map_eq_some_iff.1 isCaptured
      exact span.of_infix text
  exact ⟨stands .method, stands .file, isRun .line (by decide), isRun .column (by decide)⟩

/-- A search for the real place of evaluated code finds runs of digits of the file. -/
theorem within_of_search? {pattern : Pattern} (only : CapturesDigits pattern) {text : List Char}
    {captures : Captures} (found : pattern.search? text = some captures) :
    (ofCaptures text captures).Within text :=
  within_ofCaptures fun part isNumber => Pattern.captured_of_search? (only part isNumber) found

theorem Within.withMethod {text method : List Char} {written : WrittenFrame}
    (within : written.Within text) (inside : method <:+: text) :
    { written with method := method }.Within text :=
  ⟨inside, within.file, within.line, within.column⟩

/-- What stands in a part of a text stands in the text. -/
theorem Within.widen {part text : List Char} {written : WrittenFrame}
    (within : written.Within part) (inside : part <:+: text) : written.Within text where
  method := within.method.trans inside
  file := within.file.trans inside
  line digits isLine := (within.line digits isLine).widen inside
  column digits isColumn := (within.column digits isColumn).widen inside

end WrittenFrame

namespace Grammar

open WrittenFrame Pattern

/-- A number behind a colon is captured digit by digit. -/
theorem capturesOnly_numberPart (part other : Part) :
    (numberPart other).CapturesOnly part (Text.isDigit · = true) := by
  simp [numberPart, CapturesOnly, ConsumesOnly, Pattern.digits, greedyOne, char]

theorem capturesOnly_word (part : Part) (kind : Char → Prop) (wanted : String) :
    (word wanted).CapturesOnly part kind :=
  capturesOnly_of_setsPart (setsPart_word part wanted)

theorem capturesDigits_chromeOrigin : CapturesDigits chromeOriginPattern := by
  intro part isNumber
  rcases List.mem_pair.1 isNumber with rfl | rfl <;>
    simp [chromeOriginPattern, capturesOnly_numberPart, CapturesOnly, char]

theorem capturesDigits_geckoOrigin : CapturesDigits geckoOriginPattern := by
  intro part isNumber
  rcases List.mem_pair.1 isNumber with rfl | rfl <;>
    simp [geckoOriginPattern, capturesOnly_word, CapturesOnly, ConsumesOnly, Pattern.digits,
      greedyOne]

/-- Every form captures digits as numbers. -/
theorem capturesDigits (grammar : Grammar) : CapturesDigits grammar.pattern := by
  intro part isNumber
  have others : .method ≠ part ∧ .file ≠ part ∧ .arguments ≠ part := by
    rcases List.mem_pair.1 isNumber with rfl | rfl <;> decide
  cases grammar <;>
    simp [pattern, chromePattern, winjsPattern, geckoPattern, nodePattern, jscPattern, atKeyword,
      chromeFileStart, geckoFileStart, httpScheme, objectMark, lineEnd, blanks, anything, anyOf,
      Pattern.optional, capturesOnly_numberPart, capturesOnly_word, CapturesOnly, char, greedyOne,
      others]

/-- The parts of a line in one form stand in it, also if they are found in the file of evaluated
code. -/
theorem within_of_written? {grammar : Grammar} {line : List Char} {written : WrittenFrame}
    (matched : grammar.written? line = some written) : written.Within line := by
  obtain ⟨captures, found, rfl⟩ := Option.map_eq_some_iff.1 matched
  have whole : (ofCaptures line captures).Within line := within_ofCaptures fun part isNumber =>
    captured_of_matchFront? (capturesDigits grammar part isNumber) found
  generalize ofCaptures line captures = frame at whole
  have moved {origin : Pattern} (only : CapturesDigits origin) {captures : Captures}
      (found : origin.search? frame.file = some captures) :
      { ofCaptures frame.file captures with method := frame.method }.Within line :=
    ((within_of_search? only found).widen whole.file).withMethod whole.method
  cases grammar with
  | chrome =>
    rw [resolveEval, outOfEval]
    split
    · split
      next captures found => exact moved capturesDigits_chromeOrigin found
      next => exact whole
    · exact whole
  | winjs => exact whole
  | gecko =>
    rw [resolveEval, outOfNestedEval]
    split
    · split
      next captures found => exact moved capturesDigits_geckoOrigin found
      next => exact whole
    · exact whole
  | node => exact whole
  | jsc => exact whole

end Grammar

/-- Some run of digits in a text is too long to be read. -/
structure Overlong (text : List Char) (fault : NumeralFault) : Prop where
  long : ∃ digits, IsRun text digits ∧ Number.digitLimit < digits.length ∧
    fault = .tooManyDigits digits.length

theorem Overlong.widen {part text : List Char} {fault : NumeralFault}
    (overlong : Overlong part fault) (inside : part <:+: text) : Overlong text fault := by
  obtain ⟨digits, isRun, long, same⟩ := overlong
  exact ⟨digits, isRun.widen inside, long, same⟩

namespace WrittenFrame

/-- Digits give a number that can be written again, unless there are too many of them. -/
theorem number?_cases {text : List Char} {digits : Option (List Char)}
    (isRun : ∀ number ∈ digits, IsRun text number) :
    (∃ number, number? digits = .ok number ∧ ∀ value ∈ number, Number.Writable value) ∨
      ∃ fault, number? digits = .error fault ∧ Overlong text fault := by
  cases digits with
  | none => exact .inl ⟨none, rfl, by simp⟩
  | some digits =>
    by_cases few : digits.length ≤ Number.digitLimit
    · refine .inl ⟨some (Number.digitsValue digits), ?_, ?_⟩
      · rw [number?, Number.readDigits, if_pos few]
        rfl
      · rintro _ ⟨⟩
        exact Number.writable_of_digits (Number.digitsValue_lt digits) few
    · refine .inr ⟨.tooManyDigits digits.length, ?_, digits, isRun digits rfl, by omega, rfl⟩
      rw [number?, Number.readDigits, if_neg few]
      rfl

/-- Written parts give a frame whose numbers can be written again, unless one of them is too
long. -/
theorem frame_cases {text : List Char} {written : WrittenFrame} (within : written.Within text) :
    (∃ frame, written.frame = .ok frame ∧ frame.Writable) ∨
      ∃ fault, written.frame = .error fault ∧ Overlong text fault := by
  rw [frame]
  rcases number?_cases within.line with ⟨line, isLine, writableLine⟩ | ⟨fault, isFault, overlong⟩
  · rcases number?_cases within.column with
      ⟨column, isColumn, writableColumn⟩ | ⟨fault, isFault, overlong⟩
    · rw [isLine, isColumn]
      exact .inl ⟨_, rfl, writableLine, writableColumn⟩
    · rw [isLine, isFault]
      exact .inr ⟨fault, rfl, overlong⟩
  · rw [isFault]
    exact .inr ⟨fault, rfl, overlong⟩

end WrittenFrame

namespace Frame

/-- What a line is read as: nothing, or a frame whose numbers can be written again. -/
structure Reads (line : List Char) (reading : Option Frame) : Prop where
  ofLine : ofLine line = .ok reading
  writable : ∀ frame ∈ reading, frame.Writable

/-- A line is read, unless it has a run of too many digits. -/
theorem ofLine_cases (line : List Char) :
    (∃ reading, Reads line reading) ∨ ∃ fault, ofLine line = .error fault ∧ Overlong line fault := by
  have opened := ofLine.eq_1 line
  rw [readBy] at opened
  cases first : Grammar.all.findSome? (·.written? line) with
  | none =>
    rw [first] at opened
    exact .inl ⟨none, opened, by simp⟩
  | some written =>
    rw [first] at opened
    obtain ⟨grammar, -, matched⟩ := List.exists_of_findSome?_eq_some first
    rcases WrittenFrame.frame_cases (Grammar.within_of_written? matched) with
      ⟨frame, isFrame, writable⟩ | ⟨fault, isFault, overlong⟩
    · dsimp only at opened
      rw [isFrame] at opened
      exact .inl ⟨some frame, opened, by rintro _ ⟨⟩; exact writable⟩
    · dsimp only at opened
      rw [isFault] at opened
      exact .inr ⟨fault, opened, overlong⟩

/-- Lines are read one by one, up to the first one that has a run of too many digits. -/
theorem ofLines_cases (lines : List (List Char)) :
    (∃ readings, List.Forall₂ Reads lines readings ∧
      ofLines lines = .ok (readings.filterMap id)) ∨
    ∃ line ∈ lines, ∃ fault, ofLines lines = .error fault ∧ Overlong line fault := by
  induction lines with
  | nil => exact .inl ⟨[], .nil, rfl⟩
  | cons line lines inductionHypothesis =>
    rcases ofLine_cases line with ⟨reading, reads⟩ | ⟨fault, isFault, overlong⟩
    · rcases inductionHypothesis with ⟨readings, all, isRead⟩ | ⟨other, isOther, fault, isFault, overlong⟩
      · refine .inl ⟨reading :: readings, .cons reads all, ?_⟩
        rw [ofLines, reads.ofLine]
        cases reading with
        | none => exact isRead
        | some frame =>
          simp only [bind, Except.bind, isRead]
          rfl
      · refine .inr ⟨other, List.mem_cons_of_mem _ isOther, fault, ?_, overlong⟩
        rw [ofLines, reads.ofLine]
        cases reading with
        | none => exact isFault
        | some frame =>
          simp only [bind, Except.bind, isFault]
    · refine .inr ⟨line, List.mem_cons_self, fault, ?_, overlong⟩
      rw [ofLines, isFault]
      rfl

end Frame

end Retrace
