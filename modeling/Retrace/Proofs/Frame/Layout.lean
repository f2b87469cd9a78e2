import Retrace.Proofs.Frame.Written
import Retrace.Proofs.Pattern.Extent

/-!
# The layout of the forms

All forms are laid out alike: something in front that may name a method, the file, and the place
that `Places` describes. Whatever way a form takes through a line, what it captures as a file stands
in the line, what it captures as a method stands in front of that, and what it captures as numbers
are all the digits directly behind it.
-/

namespace Retrace

namespace Grammar

open Pattern

variable {offset : Nat} {text taken rest : List Char} {captures : Captures} {after : Cursor}

/-- No digit follows. -/
def Stops (rest : List Char) : Prop :=
  ∀ char ∈ rest.head?, Text.isDigit char = false

/-- Blanks do not continue a number. -/
theorem stops_of_blank (blank : ∀ char ∈ text, Text.isBlank char = true) : Stops text :=
  fun char isHead => Text.isDigit_eq_false_of_isBlank (blank char (List.mem_of_head? isHead))

theorem stops_cons {char : Char} (noDigit : Text.isDigit char = false) : Stops (char :: rest) := by
  rintro _ ⟨⟩
  exact noDigit

/-- A number behind a colon is captured. -/
theorem mem_outcomes_numberPart {part : Part}
    (found : after ∈ (numberPart part).outcomes ⟨offset, text, captures⟩) :
    ∃ digits rest, text = ':' :: (digits ++ rest) ∧ IsNumber digits ∧
      after = ⟨offset + 1 + digits.length, rest,
        captures.set part ⟨offset + 1, offset + 1 + digits.length⟩⟩ := by
  obtain ⟨colon, isColon, behind⟩ := List.mem_flatMap.1 found
  obtain ⟨_, rest, rfl, spells, rfl⟩ := mem_outcomes_of_isSilent (fun _ => rfl) isColon
  obtain rfl := spells_char.1 spells
  obtain ⟨inner, isInner, rfl⟩ := List.mem_map.1 behind
  obtain ⟨digits, rest, rfl, spells, rfl⟩ := mem_outcomes_of_isSilent (fun _ => rfl) isInner
  obtain ⟨nonempty, areDigits⟩ := spells_greedyOne.1 spells
  exact ⟨digits, rest, rfl, ⟨nonempty, areDigits⟩, rfl⟩

/-- Blanks up to the end of a line, perhaps behind a parenthesis. -/
def closers : List Pattern :=
  [seq (optional (char ')')) lineEnd, lineEnd]

theorem EndsPlace.exists_closer {behind : Pattern} {closing : List Char}
    (ends : EndsPlace behind closing) :
    ∃ closer ∈ closers, behind = seq (optional (numberPart .column)) closer := by
  rcases ends.pattern with rfl | rfl
  · exact ⟨_, List.mem_cons_self, rfl⟩
  · exact ⟨_, List.mem_cons_of_mem _ (List.mem_singleton_self _), rfl⟩

theorem isSilent_lineEnd : lineEnd.IsSilent := fun _ => rfl

theorem isSilent_closer {closer : Pattern} (isCloser : closer ∈ closers) : closer.IsSilent := by
  rcases List.mem_pair.1 isCloser with rfl | rfl
  · exact fun _ => rfl
  · exact isSilent_lineEnd

/-- No digit stands in front of what closes a place. -/
theorem stops_of_closer {closer : Pattern} (isCloser : closer ∈ closers)
    (spells : closer.Spells offset taken rest) : Stops (taken ++ rest) := by
  rcases List.mem_pair.1 isCloser with rfl | rfl
  · obtain ⟨_, blanks, rfl, closed, ends⟩ := spells_seq.1 spells
    rcases spells_optional.1 closed with parenthesis | rfl
    · rw [spells_char.1 parenthesis]
      exact stops_cons (Text.isDigit_eq_false_of_mem (by decide))
    · exact stops_of_blank (isBlank_of_spells_lineEnd ends)
  · exact stops_of_blank (isBlank_of_spells_lineEnd spells)

/-- What is captured behind the line of a place: no column, or the number that stands there. -/
theorem captured_of_columnEnd {behind : Pattern} {closing : List Char}
    (ends : EndsPlace behind closing) (found : after ∈ behind.outcomes ⟨offset, text, captures⟩) :
    (after.captures = captures ∧ Stops text) ∨
      ∃ digits rest, text = ':' :: (digits ++ rest) ∧ IsNumber digits ∧ Stops rest ∧
        after.captures = captures.set .column ⟨offset + 1, offset + 1 + digits.length⟩ ∧
        ∃ taken last, rest = taken ++ last ∧
          behind.Spells (offset + 1 + digits.length) taken last := by
  obtain ⟨closer, isCloser, rfl⟩ := ends.exists_closer
  obtain ⟨middle, column, closed⟩ := List.mem_flatMap.1 found
  rcases List.mem_append.1 column with column | column
  · obtain ⟨digits, rest, rfl, isNumber, rfl⟩ := mem_outcomes_numberPart column
    obtain ⟨taken, last, rfl, spells, rfl⟩ :=
      mem_outcomes_of_isSilent (isSilent_closer isCloser) closed
    exact .inr ⟨digits, taken ++ last, rfl, isNumber, stops_of_closer isCloser spells, rfl, taken,
      last, rfl, spells_seq.2 ⟨[], taken, rfl, spells_optional.2 (.inr rfl), spells⟩⟩
  · obtain rfl := List.mem_singleton.1 column
    obtain ⟨taken, last, rfl, spells, rfl⟩ :=
      mem_outcomes_of_isSilent (isSilent_closer isCloser) closed
    exact .inl ⟨rfl, stops_of_closer isCloser spells⟩

/-- What is captured of a place: nothing, a line, or a line and the column behind it. -/
inductive Located (offset : Nat) (text : List Char) (captures : Captures) : Captures → Prop where
  | nowhere : Located offset text captures captures
  | line {line rest : List Char} (cut : text = ':' :: (line ++ rest)) (isLine : IsNumber line)
      (stops : Stops rest) :
      Located offset text captures (captures.set .line ⟨offset + 1, offset + 1 + line.length⟩)
  | column {line column rest : List Char} (cut : text = placeUpTo rest line column)
      (isLine : IsNumber line) (isColumn : IsNumber column) (stops : Stops rest) :
      Located offset text captures ((captures.set .line ⟨offset + 1, offset + 1 + line.length⟩).set
        .column ⟨offset + line.length + 2, offset + line.length + 2 + column.length⟩)

/-- Behind a file whatever is captured is a place. A column is never captured where a line could be:
the same digits would do for the line, which is preferred. -/
theorem located_of_run {lineNumber behind : Pattern} {closing : List Char} {result : Captures}
    (asks : AsksLine lineNumber) (ends : EndsPlace behind closing)
    (matched : (seq lineNumber behind).run ⟨offset, text, captures⟩ found = some result) :
    Located offset text captures result := by
  have behindLine (matched : (numberPart .line).run ⟨offset, text, captures⟩
      (fun middle => behind.run middle found) = some result) :
      Located offset text captures result := by
    obtain ⟨middle, number, matched⟩ := exists_of_run matched
    obtain ⟨line, rest, rfl, isLine, rfl⟩ := mem_outcomes_numberPart number
    obtain ⟨after, isAfter, same⟩ := exists_of_run matched
    obtain rfl : after.captures = result := Option.some.inj same
    rcases captured_of_columnEnd ends isAfter with ⟨same, stops⟩ |
      ⟨column, rest, rfl, isColumn, stops, same, -⟩
    · rw [same]
      exact .line rfl isLine stops
    · have moved : offset + 1 + line.length + 1 = offset + line.length + 2 := by omega
      rw [same, moved]
      exact .column rfl isLine isColumn stops
  cases asks with
  | needed => exact behindLine matched
  | wanted =>
    cases withLine : (numberPart .line).run ⟨offset, text, captures⟩
        (fun middle => behind.run middle found) with
    | some other =>
      obtain rfl := Option.some.inj ((run_optional_of_some withLine).symm.trans matched)
      exact behindLine withLine
    | none =>
      have without := (run_optional_of_none withLine).symm.trans matched
      obtain ⟨after, isAfter, same⟩ := exists_of_run without
      obtain rfl : after.captures = result := Option.some.inj same
      rcases captured_of_columnEnd ends isAfter with ⟨same, -⟩ |
        ⟨digits, _, rfl, isNumber, -, -, taken, last, rfl, spells⟩
      · rw [same]
        exact .nowhere
      · have spelled : (seq (numberPart .line) behind).Spells offset
            (':' :: digits ++ taken) last := by
          refine spells_seq.2
            ⟨':' :: digits, taken, rfl, spells_numberPart.2 ⟨digits, rfl, isNumber⟩, ?_⟩
          rwa [List.length_cons, Nat.add_comm digits.length, ← Nat.add_assoc]
        have possible : (seq (numberPart .line) behind).run
            ⟨offset, ':' :: digits ++ taken ++ last, captures⟩ found ≠ none :=
          run_ne_none (fun _ => Option.some_ne_none _) spelled
        rw [List.append_assoc] at possible
        exact absurd withLine possible

/-- The layout of a form: something in front that captures neither a file nor a number, then a file,
then a place. -/
inductive LaidOut : Pattern → Prop where
  | mk {fronts : List Pattern} {file lineNumber behind : Pattern} {closing : List Char}
      (inFront : ∀ part ∈ [Part.file, .line, .column], fronts.any (setsPart part) = false)
      (silent : file.IsSilent) (asks : AsksLine lineNumber) (ends : EndsPlace behind closing) :
      LaidOut (inTurn fronts (seq (capture .file file) (seq lineNumber behind)))

/-- What a form asks for in front of its file. -/
def fronts : Grammar → List Pattern
  | .chrome => [atKeyword, capture .method anything, optional (char ' '), char '(']
  | .winjs =>
    [atKeyword,
     optional (Pattern.all
       [capture .method (Pattern.all [objectMark, greedyOne isInLine]), char ' ']),
     optional (char '(')]
  | .gecko =>
    [atStart, blanks, capture .method anything,
     optional (Pattern.all [char '(', capture .arguments anything, char ')']),
     either atStart (char '@')]
  | .node =>
    [atKeyword,
     optional (Pattern.all
       [capture .method (Pattern.all
          [objectMark, greedyOne fun char => char ≠ '\\' && char ≠ '/',
           optional (Pattern.all
             [word " [as ", greedyOne fun char => !Text.isBlank char, char ']'])]),
        char ' ']),
     optional (char '(')]
  | .jsc =>
    [atStart, blanks,
     optional (Pattern.all
       [capture .method (greedy (· ≠ '@')),
        optional (Pattern.all [char '(', capture .arguments anything, char ')']), char '@'])]

/-- In front of its file no form captures a file or a number. -/
theorem setsPart_fronts (grammar : Grammar) :
    ∀ part ∈ [Part.file, .line, .column], grammar.fronts.any (setsPart part) = false := by
  cases grammar <;> decide

/-- All forms are laid out alike. -/
theorem laidOut_pattern (grammar : Grammar) : LaidOut grammar.pattern := by
  have inFront := setsPart_fronts grammar
  cases grammar with
  | chrome => exact @LaidOut.mk (fronts .chrome) _ _ _ _ inFront (fun _ => rfl) .wanted .closed
  | winjs => exact @LaidOut.mk (fronts .winjs) _ _ _ _ inFront (fun _ => rfl) .needed .closed
  | gecko => exact @LaidOut.mk (fronts .gecko) _ _ _ _ inFront (fun _ => rfl) .wanted .unclosed
  | node => exact @LaidOut.mk (fronts .node) _ _ _ _ inFront (fun _ => rfl) .needed .closed
  | jsc => exact @LaidOut.mk (fronts .jsc) _ _ _ _ inFront (fun _ => rfl) .needed .unclosed

/-- What the text behind a file tells as a line and a column. In front of the line something
introduces it. -/
inductive Tells (introduces : List Char → List Char → Prop) (behind : List Char) :
    Option (List Char) → Option (List Char) → Prop where
  | nothing : Tells introduces behind none none
  | line {mark line rest : List Char} (cut : behind = mark ++ (line ++ rest))
      (introduced : introduces mark rest) (isLine : IsNumber line) (stops : Stops rest) :
      Tells introduces behind (some line) none
  | column {mark line column rest : List Char}
      (cut : behind = mark ++ (line ++ ':' :: (column ++ rest)))
      (introduced : introduces mark (':' :: (column ++ rest))) (isLine : IsNumber line)
      (isColumn : IsNumber column) (stops : Stops rest) :
      Tells introduces behind (some line) (some column)

theorem Tells.mono {one other : List Char → List Char → Prop} {behind : List Char}
    {line column : Option (List Char)} (tells : Tells one behind line column)
    (wider : ∀ mark rest, one mark rest → other mark rest) : Tells other behind line column := by
  cases tells with
  | nothing => exact .nothing
  | line cut introduced isLine stops => exact .line cut (wider _ _ introduced) isLine stops
  | column cut introduced isLine isColumn stops =>
    exact .column cut (wider _ _ introduced) isLine isColumn stops

/-- The parts of a frame between what stands in front of its file and what stands behind it. -/
structure StandsBetween (introduces : List Char → List Char → Prop) (before behind : List Char)
    (written : WrittenFrame) : Prop where
  method : written.method <:+: before
  place : Tells introduces behind written.line written.column

/-- A colon introduces a line. -/
def IsColon (mark _rest : List Char) : Prop :=
  mark = [':']

/-- A file, and a line behind something else, captured as they are written from an offset on. -/
def captureMarked (captures : Captures) (offset : Nat) (file mark line : List Char) : Captures :=
  (captures.set .file ⟨offset, offset + file.length⟩).set .line
    ⟨offset + file.length + mark.length, offset + file.length + mark.length + line.length⟩

/-- A file and a line are read as they are written from the offset of the file on. -/
theorem ofCaptures_captureMarked {text front file mark line rest : List Char}
    (cut : text = front ++ (file ++ (mark ++ (line ++ rest)))) (starts : offset = front.length)
    (noColumn : captures .column = none) :
    WrittenFrame.ofCaptures text (captureMarked captures offset file mark line) =
      ⟨(captures.text? .method text).getD [], file, some line, none⟩ := by
  have isFile : Span.of ⟨offset, offset + file.length⟩ text = file :=
    Span.of_eq cut starts (by rw [starts])
  have behind : text = (front ++ file ++ mark) ++ (line ++ rest) := by simp [cut]
  have isLine : Span.of ⟨offset + file.length + mark.length,
      offset + file.length + mark.length + line.length⟩ text = line :=
    Span.of_eq behind (by simp [starts, Nat.add_assoc]) (by simp [starts, Nat.add_assoc])
  simp [WrittenFrame.ofCaptures, Captures.text?, captureMarked, Captures.set, isFile, isLine,
    noColumn]

/-- The parts that are captured of a file and a place stand there. -/
theorem standsBetween_of_located {line before file behind : List Char} {result : Captures}
    (cut : line = before ++ (file ++ behind))
    (located : Located (before.length + file.length) behind
      (captures.set .file ⟨before.length, before.length + file.length⟩) result)
    (method : (captures.text? .method line).getD [] <:+: before)
    (noLine : captures .line = none) (noColumn : captures .column = none) :
    (WrittenFrame.ofCaptures line result).file = file ∧
      StandsBetween IsColon before behind (WrittenFrame.ofCaptures line result) := by
  cases located with
  | nowhere =>
    have isFile : Span.of ⟨before.length, before.length + file.length⟩ line = file :=
      Span.of_eq cut rfl rfl
    have parts : WrittenFrame.ofCaptures line
        (captures.set .file ⟨before.length, before.length + file.length⟩) =
        ⟨(captures.text? .method line).getD [], file, none, none⟩ := by
      simp [WrittenFrame.ofCaptures, Captures.text?, Captures.set, isFile, noLine, noColumn]
    rw [parts]
    exact ⟨rfl, method, .nothing⟩
  | @line number rest placeCut isLine stops =>
    have introduced : behind = [':'] ++ (number ++ rest) := placeCut
    have parts := ofCaptures_captureMarked (cut.trans (by rw [introduced])) rfl noColumn
    rw [captureMarked, List.length_singleton] at parts
    rw [parts]
    exact ⟨rfl, method, .line introduced rfl isLine stops⟩
  | @column number column rest placeCut isLine isColumn stops =>
    have introduced : behind = [':'] ++ (number ++ ':' :: (column ++ rest)) := placeCut
    have parts : WrittenFrame.ofCaptures line
        (captureFile captures before.length file number column) =
        ⟨(captures.text? .method line).getD [], file, some number, some column⟩ :=
      ofCaptures_captureFile (cut.trans (by rw [placeCut])) rfl
    rw [captureFile] at parts
    rw [parts]
    exact ⟨rfl, method, .column introduced rfl isLine isColumn stops⟩

/-- What is captured in front of a part of a text stands there. -/
theorem infix_of_captured {part : Part} {line before : List Char}
    (between : ∀ span ∈ captures part, span.stop ≤ before.length) (cut : before <+: line) :
    (captures.text? part line).getD [] <:+: before := by
  obtain ⟨rest, rfl⟩ := cut
  unfold Captures.text?
  cases isCaptured : captures part with
  | none => exact List.nil_infix
  | some span =>
    have early : (before ++ rest).take span.stop = before.take span.stop :=
      List.take_append_of_le_length (between span isCaptured)
    have same : span.of (before ++ rest) = span.of before := congrArg (List.drop span.start) early
    rw [Option.map_some, Option.getD_some, same]
    exact span.of_infix before

/-- The parts that are captured of a line stand there. -/
theorem exists_of_captured {pattern : Pattern} (laidOut : LaidOut pattern) {line : List Char}
    (matched : pattern.matchFront? line = some captures) :
    ∃ before behind, line = before ++ ((WrittenFrame.ofCaptures line captures).file ++ behind) ∧
      StandsBetween IsColon before behind (WrittenFrame.ofCaptures line captures) := by
  obtain ⟨inFront, silent, asks, ends⟩ := laidOut
  obtain ⟨middle, isMiddle, matched⟩ := exists_of_run_inTurn matched
  obtain ⟨before, spelled⟩ := spelled_of_mem_outcomes isMiddle
  have unset (part : Part) (isPart : part ∈ [Part.file, .line, .column]) :
      middle.captures part = none := by
    refine (captures_of_mem_outcomes ?_ isMiddle).trans rfl
    rw [setsPart_inTurn, inFront part isPart]
    rfl
  rw [run_seq] at matched
  obtain ⟨fileEnd, isFile, matched⟩ := exists_of_run matched
  obtain ⟨inner, isInner, rfl⟩ := List.mem_map.1 isFile
  obtain ⟨file, behind, cut, -, rfl⟩ := mem_outcomes_of_isSilent silent isInner
  have lineCut : line = before ++ (file ++ behind) := cut ▸ spelled.rest
  have offset : middle.offset = before.length := spelled.offset.trans (Nat.zero_add _)
  have methodInside : (middle.captures.text? .method line).getD [] <:+: before := by
    refine infix_of_captured (fun span isCaptured => ?_) ⟨_, lineCut.symm⟩
    rcases (capturesBetween_of_mem_outcomes isMiddle).captured .method span isCaptured with
      nothing | between
    · cases nothing
    · exact offset ▸ between.stop
  have located : Located (before.length + file.length) behind
      (middle.captures.set .file ⟨before.length, before.length + file.length⟩) captures := by
    rw [← offset]
    exact located_of_run asks ends matched
  have stands := standsBetween_of_located lineCut located methodInside (unset .line (by decide))
    (unset .column (by decide))
  refine ⟨before, behind, ?_, stands.2⟩
  rw [stands.1]
  exact lineCut

end Grammar

end Retrace
