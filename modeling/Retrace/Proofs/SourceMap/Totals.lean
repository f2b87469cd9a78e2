import Mathlib.Algebra.Ring.Int.Defs
import Retrace.SourceMap.Document

/-!
# Decoded segments are what the numbers add up to

The decoder keeps registers and adds the numbers of one segment after the other to them. Here a
segment is described without registers, from the text of the mappings alone: its column is the total
of the first numbers of its line through the segment itself, and its source, the line and the column
there and its name are totals over all lines. `Totals.add` is what one segment does to the totals,
and by induction they are what the registers hold everywhere in a document.
-/

namespace Retrace.SourceMap

/-- The numbers of a written segment. A text that is no run of numbers has none. -/
def numbersOf (written : List Char) : List Int :=
  (Vlq.decode written).toOption.getD []

/-- What the numbers at one place of some segments add up to. A number that is left out adds
nothing. -/
def total (place : Nat) (segments : List (List Char)) : Int :=
  (segments.map fun written => (numbersOf written).getD place 0).sum

/-- The segments of a written line, without the empty ones. -/
def segmentsOf (line : List Char) : List (List Char) :=
  (Text.pieces ',' line).filter (!·.isEmpty)

/-- The segments of all written lines. -/
def writtenLines (mappings : List Char) : List (List (List Char)) :=
  (Text.pieces ';' mappings).map segmentsOf

/-- The totals behind some segments of a line and all segments of the lines before it. -/
def totals (earlier : List (List (List Char))) (line : List (List Char)) : Registers where
  column := total 0 line
  source := total 1 (earlier.flatten ++ line)
  sourceLine := total 2 (earlier.flatten ++ line)
  sourceColumn := total 3 (earlier.flatten ++ line)
  name := total 4 (earlier.flatten ++ line)

/-- Registers place a segment: they hold its column and where its code comes from. A segment of a
single number comes from nowhere, and only one of at least five numbers has a name. -/
structure Places (sources : Json) (names : List String) (written : List Char)
    (registers : Registers) (segment : Segment) : Prop where
  column : registers.column = segment.column
  sourceLine : registers.sourceLine = segment.sourceLine
  sourceColumn : registers.sourceColumn = segment.sourceColumn
  nowhere : (numbersOf written).length = 1 → segment.source = .null
  source : (numbersOf written).length ≠ 1 → ∃ number : Nat, registers.source = number ∧
    sourceAt sources number = .ok segment.source
  unnamed : (numbersOf written).length < 5 → segment.name = none
  name : 5 ≤ (numbersOf written).length → ∃ number : Nat, registers.name = number ∧
    segment.name = names[number]? ∧ segment.name.isSome

section Totals

variable {sources : Json} {names : List String} {earlier : List (List (List Char))}
  {line : List (List Char)}

theorem total_append (place : Nat) (front back : List (List Char)) :
    total place (front ++ back) = total place front + total place back := by
  rw [total, List.map_append, List.sum_append]
  rfl

theorem total_singleton (place : Nat) (written : List Char) :
    total place [written] = (numbersOf written).getD place 0 := by
  simp [total]

/-- The registers with the numbers of one more segment added to them. -/
def Registers.add (registers : Registers) (numbers : List Int) : Registers where
  column := registers.column + numbers.getD 0 0
  source := registers.source + numbers.getD 1 0
  sourceLine := registers.sourceLine + numbers.getD 2 0
  sourceColumn := registers.sourceColumn + numbers.getD 3 0
  name := registers.name + numbers.getD 4 0

/-- One more segment adds its numbers to the totals. -/
theorem totals_concat (written : List Char) :
    totals earlier (line ++ [written]) = (totals earlier line).add (numbersOf written) := by
  unfold totals Registers.add
  simp only [← List.append_assoc, total_append, total_singleton]

/-- At the end of a line, only the total of the columns starts anew. -/
theorem totals_newLine : (totals earlier line).newLine = totals (earlier ++ [line]) [] := by
  simp [totals, Registers.newLine, total]

/-- Two steps that end well do so one behind the other. -/
theorem exists_of_bind_eq_ok {ε α β : Type} {first : Except ε α} {second : α → Except ε β}
    {result : β} (both : first >>= second = .ok result) :
    ∃ middle, first = .ok middle ∧ second middle = .ok result := by
  cases first with
  | error fault => cases both
  | ok middle => exact ⟨middle, rfl, both⟩

/-- A segment is placed where the registers say, none of which is negative. -/
theorem segment_of_ok {registers : Registers} {source : Json} {name : Option String}
    {segment : Segment} (placed : registers.segment source name = .ok segment) :
    registers.column = segment.column ∧ registers.sourceLine = segment.sourceLine ∧
      registers.sourceColumn = segment.sourceColumn ∧ segment.source = source ∧
      segment.name = name := by
  unfold Registers.segment at placed
  split at placed
  next => cases placed
  next nonnegative =>
    simp only [Bool.or_eq_true, decide_eq_true_eq] at nonnegative
    cases placed
    refine ⟨?_, ?_, ?_, rfl, rfl⟩
    all_goals simp only; omega

/-- A source that is found has a number among the sources. -/
theorem sourceOf_of_ok {written : List Char} {number : Int} {source : Json}
    (found : sourceOf sources written number = .ok source) :
    ∃ place : Nat, number = place ∧ sourceAt sources place = .ok source := by
  unfold sourceOf at found
  obtain ⟨count, -, found⟩ := exists_of_bind_eq_ok found
  split at found
  next within =>
    simp only [Bool.and_eq_true, decide_eq_true_eq] at within
    exact ⟨number.toNat, by omega, found⟩
  next => cases found

/-- A name that is found has a number among the names. -/
theorem nameOf_of_ok {written : List Char} {number : Int} {name : String}
    (found : nameOf names written number = .ok name) :
    ∃ place : Nat, number = place ∧ names[place]? = some name := by
  unfold nameOf at found
  split at found
  next text isText =>
    cases found
    split at isText
    next => cases isText
    next nonnegative => exact ⟨number.toNat, by omega, isText⟩
  next => cases found

/-- A segment that is accepted adds its numbers to the registers and is placed by what they then
hold. -/
theorem places_of_applyNumbers {registers after : Registers} {written : List Char}
    {segment : Segment}
    (accepted : applyNumbers sources names registers written (numbersOf written) =
      .ok (after, segment)) :
    after = registers.add (numbersOf written) ∧ Places sources names written after segment := by
  generalize isWritten : numbersOf written = numbers at accepted
  have length := congrArg List.length isWritten
  match numbers, accepted with
  | [column], accepted =>
    obtain ⟨found, placed, same⟩ := exists_of_bind_eq_ok accepted
    cases same
    obtain ⟨isColumn, isLine, isSourceColumn, isSource, isName⟩ := segment_of_ok placed
    rw [List.length_singleton] at length
    exact ⟨by simp [Registers.add], isColumn, isLine, isSourceColumn, fun _ => isSource,
      fun several => absurd length several, fun _ => isName, fun many => by omega⟩
  | column :: source :: place, accepted =>
    obtain ⟨found, isFound, accepted⟩ := exists_of_bind_eq_ok accepted
    have hasSource := sourceOf_of_ok isFound
    match place, accepted with
    | [sourceLine, sourceColumn], accepted =>
      obtain ⟨named, isNamed, accepted⟩ := exists_of_bind_eq_ok accepted
      cases isNamed
      obtain ⟨placed, isPlaced, same⟩ := exists_of_bind_eq_ok accepted
      cases same
      obtain ⟨isColumn, isLine, isSourceColumn, rfl, isName⟩ := segment_of_ok isPlaced
      simp only [List.length_cons, List.length_nil] at length
      exact ⟨by simp [Registers.add], isColumn, isLine, isSourceColumn, fun single => by omega,
        fun _ => hasSource, fun _ => isName, fun many => by omega⟩
    | sourceLine :: sourceColumn :: name :: others, accepted =>
      obtain ⟨named, isNamed, accepted⟩ := exists_of_bind_eq_ok accepted
      obtain ⟨placed, isPlaced, same⟩ := exists_of_bind_eq_ok accepted
      cases same
      obtain ⟨isColumn, isLine, isSourceColumn, rfl, isName⟩ := segment_of_ok isPlaced
      have hasName : ∃ number : Nat, registers.name + name = number ∧
          segment.name = names[number]? ∧ segment.name.isSome := by
        cases isText : nameOf names written (registers.name + name) with
        | error fault =>
          rw [List.headD_cons, isText] at isNamed
          cases isNamed
        | ok text =>
          rw [List.headD_cons, isText] at isNamed
          cases isNamed
          obtain ⟨number, isNumber, isIn⟩ := nameOf_of_ok isText
          exact ⟨number, isNumber, isName.trans isIn.symm, by rw [isName]; rfl⟩
      simp only [List.length_cons] at length
      exact ⟨by simp [Registers.add], isColumn, isLine, isSourceColumn, fun single => by omega,
        fun _ => hasSource, fun few => by omega, fun _ => hasName⟩

/-- The numbers of a segment that is read are those that it has. -/
theorem segmentNumbers_of_ok {written : List Char} {numbers : List Int}
    (isRead : segmentNumbers written = .ok numbers) : numbersOf written = numbers := by
  unfold segmentNumbers at isRead
  split at isRead
  next decoded =>
    cases isRead
    rw [numbersOf, decoded]
    rfl
  next => cases isRead
  next => cases isRead

/-- The segments of a line are placed by the totals behind each of them, and behind the line the
registers hold the totals of the whole line. -/
theorem places_of_decodeSegments {pieces : List (List Char)} {after : Registers}
    {segments : List Segment}
    (decoded : decodeSegments sources names (totals earlier line) pieces = .ok (after, segments)) :
    after = totals earlier (line ++ pieces.filter (!·.isEmpty)) ∧
      ∀ segment ∈ segments, ∃ here written behind,
        pieces.filter (!·.isEmpty) = here ++ written :: behind ∧
        Places sources names written (totals earlier (line ++ (here ++ [written]))) segment := by
  induction pieces generalizing line segments with
  | nil =>
    cases decoded
    simp
  | cons written pieces inductionHypothesis =>
    by_cases isEmpty : written.isEmpty = true
    · rw [decodeSegments] at decoded
      simp only [isEmpty, if_true] at decoded
      simpa [isEmpty] using inductionHypothesis decoded
    · have kept : (written :: pieces).filter (!·.isEmpty) =
          written :: pieces.filter (!·.isEmpty) := by simp [isEmpty]
      rw [decodeSegments] at decoded
      simp only [isEmpty, Bool.false_eq_true, if_false] at decoded
      obtain ⟨numbers, isRead, decoded⟩ := exists_of_bind_eq_ok decoded
      obtain rfl := segmentNumbers_of_ok isRead
      obtain ⟨⟨middle, first⟩, accepted, decoded⟩ := exists_of_bind_eq_ok decoded
      obtain ⟨⟨last, others⟩, isRest, same⟩ := exists_of_bind_eq_ok decoded
      cases same
      obtain ⟨rfl, places⟩ := places_of_applyNumbers accepted
      dsimp only at isRest
      rw [← totals_concat] at isRest places
      obtain ⟨rfl, rest⟩ := inductionHypothesis isRest
      rw [kept]
      refine ⟨by simp, ?_⟩
      intro segment isIn
      rcases List.mem_cons.1 isIn with rfl | isIn
      · exact ⟨[], written, _, rfl, places⟩
      · obtain ⟨here, other, behind, cut, placed⟩ := rest segment isIn
        refine ⟨written :: here, other, behind, by rw [cut, List.cons_append], ?_⟩
        simpa using placed

/-- The segments of every line are placed by the totals through each of them. -/
theorem places_of_decodeLines {lines : List (List Char)} {registers : Registers}
    {rows : List (List Segment)} (start : registers.newLine = totals earlier [])
    (decoded : decodeLines sources names registers lines = .ok rows) {row : Nat}
    {segments : List Segment} (isRow : rows[row]? = some segments) :
    ∀ segment ∈ segments, ∃ between here written behind later,
      lines.map segmentsOf = between ++ (here ++ written :: behind) :: later ∧
      between.length = row ∧
      Places sources names written (totals (earlier ++ between) (here ++ [written])) segment := by
  induction lines generalizing earlier registers rows row with
  | nil =>
    cases decoded
    cases isRow
  | cons first lines inductionHypothesis =>
    rw [decodeLines] at decoded
    obtain ⟨⟨after, others⟩, isFirst, decoded⟩ := exists_of_bind_eq_ok decoded
    obtain ⟨rest, isRest, same⟩ := exists_of_bind_eq_ok decoded
    cases same
    rw [start] at isFirst
    obtain ⟨rfl, placed⟩ := places_of_decodeSegments isFirst
    rw [List.nil_append] at isRest
    intro segment isIn
    cases row with
    | zero =>
      cases isRow
      obtain ⟨here, written, behind, cut, places⟩ := placed segment isIn
      refine ⟨[], here, written, behind, lines.map segmentsOf, ?_, rfl, ?_⟩
      · rw [List.map_cons, segmentsOf, cut, List.nil_append]
      · simpa using places
    | succ row =>
      obtain ⟨between, here, written, behind, later, cut, isRow, places⟩ :=
        inductionHypothesis totals_newLine isRest isRow segment isIn
      refine ⟨segmentsOf first :: between, here, written, behind, later, ?_, ?_, ?_⟩
      · rw [List.map_cons, cut, List.cons_append]
      · rw [List.length_cons, isRow]
      · simpa [segmentsOf] using places

end Totals

end Retrace.SourceMap
