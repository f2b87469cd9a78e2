import Mathlib.Data.List.GetD
import Retrace.Proofs.Text.Pieces
import Retrace.SourceMap.Encoding
import Retrace.SourceMap.Mappings
import Retrace.SourceMap.Vlq.RoundTrip

/-!
# Written mappings decode to the drafted segments

The registers of the decoder hold what the baseline of the writer holds, before a segment as well as
behind it, so that every difference is added to the number that it was taken from. A segment without
an origin moves only the column of both. What a decoded line says is stated by its entries: the
column of every segment and the place it comes from.
-/

namespace Retrace.SourceMap

namespace Vlq

/-- Every character of a written number is a digit. -/
theorem mem_alphabet_of_encodeUnsigned {char : Char} {number : Nat}
    (isIn : char ∈ encodeUnsigned number) : char ∈ alphabet := by
  have isDigit (value : Nat) : digit value ∈ alphabet := by
    unfold digit
    by_cases small : value < alphabet.length
    · rw [List.getD_eq_getElem _ _ small]
      exact List.getElem_mem small
    · rw [List.getD_eq_default _ _ (Nat.le_of_not_lt small)]
      decide
  induction number using Nat.strongRecOn with
  | ind number inductionHypothesis =>
    rw [encodeUnsigned] at isIn
    split at isIn
    next => exact List.mem_singleton.1 isIn ▸ isDigit number
    next large =>
      rcases List.mem_cons.1 isIn with rfl | isIn
      · exact isDigit _
      · exact inductionHypothesis (number / 32) (by omega) isIn

/-- A character that is no digit does not occur in a written segment. -/
theorem not_mem_encode {char : Char} (noDigit : char ∉ alphabet) (values : List Int) :
    char ∉ encode values := by
  intro isIn
  obtain ⟨value, -, isIn⟩ := List.mem_flatMap.1 isIn
  exact noDigit (mem_alphabet_of_encodeUnsigned isIn)

/-- A segment with a number is not empty. -/
theorem encode_cons_ne_nil (value : Int) (values : List Int) : encode (value :: values) ≠ [] := by
  unfold encode
  rw [List.flatMap_cons, encodeUnsigned]
  split <;> exact List.cons_ne_nil _ _

end Vlq

/-- What a line says at a segment: its column, and the place that the code comes from. -/
abbrev Entry := Nat × Option Position

/-- What a decoded segment says. -/
def Segment.entry (segment : Segment) : Entry :=
  (segment.column, segment.position?)

namespace Draft

/-- The place of a drafted segment among the sources and the names, if it has an origin. -/
def position? (sources names : List String) (draft : Draft) : Option Position := do
  let origin ← draft.origin
  let source ← sources[origin.source]?
  return {
    source := .string source
    line := some (origin.line + 1)
    column := some origin.column
    name := origin.name.bind (names[·]?) }

/-- What a drafted segment says. -/
def entry (sources names : List String) (draft : Draft) : Entry :=
  (draft.column, draft.position? sources names)

/-- The numbers of a drafted segment are those of sources and names that exist. -/
structure InRange (sources names : List String) (draft : Draft) : Prop where
  source : ∀ origin ∈ draft.origin, origin.source < sources.length
  name : ∀ origin ∈ draft.origin, ∀ name ∈ origin.name, name < names.length

instance (sources names : List String) (draft : Draft) :
    Decidable (draft.InRange sources names) :=
  decidable_of_iff ((∀ origin ∈ draft.origin, origin.source < sources.length) ∧
      ∀ origin ∈ draft.origin, ∀ name ∈ origin.name, name < names.length)
    ⟨fun both => ⟨both.1, both.2⟩, fun inRange => ⟨inRange.source, inRange.name⟩⟩

end Draft

namespace Baseline

/-- The registers of the decoder where the writer has a baseline. -/
def registers (baseline : Baseline) : Registers where
  column := baseline.column
  source := baseline.source
  sourceLine := baseline.line
  sourceColumn := baseline.sourceColumn
  name := baseline.name

theorem registers_newLine (baseline : Baseline) :
    baseline.newLine.registers = baseline.registers.newLine :=
  rfl

/-- The registers place a segment as they are, because no baseline is negative. -/
theorem registers_segment (baseline : Baseline) (source : Json) (name : Option String) :
    baseline.registers.segment source name =
      .ok ⟨baseline.column, source, baseline.line, baseline.sourceColumn, name⟩ := by
  have nonnegative : ¬ (decide ((baseline.column : Int) < 0) || decide ((baseline.line : Int) < 0) ||
      decide ((baseline.sourceColumn : Int) < 0)) = true := by
    simp only [Bool.or_eq_true, decide_eq_true_eq]
    omega
  unfold Registers.segment registers
  rw [if_neg nonnegative]
  rfl

end Baseline

/-- A name within range is found by its number. -/
theorem nameOf_of_lt {names : List String} {number : Nat} (small : number < names.length)
    (written : List Char) : nameOf names written number = .ok names[number] := by
  have nonnegative : ¬ (number : Int) < 0 := by omega
  unfold nameOf
  rw [if_neg nonnegative, Int.toNat_natCast, List.getElem?_eq_getElem small]

/-- A source within range is found by its number. -/
theorem sourceOf_of_lt {sources : List String} {number : Nat} (small : number < sources.length)
    (written : List Char) :
    sourceOf (.array (sources.map .string)) written number = .ok (.string sources[number]) := by
  have within : (decide (0 ≤ (number : Int)) &&
      decide ((number : Int) < (((sources.map Json.string).length : Nat) : Int))) = true := by
    rw [List.length_map, Bool.and_eq_true, decide_eq_true_eq, decide_eq_true_eq]
    omega
  unfold sourceOf sourceCount
  simp only [bind, Except.bind]
  rw [if_pos within]
  simp [sourceAt, small]

section Decoding

variable {sources names : List String}

/-- Adding the differences of a segment to the registers gives the segment, and the registers
behind it. -/
theorem applyNumbers_differences {draft : Draft} (inRange : draft.InRange sources names)
    (baseline : Baseline) (written : List Char) :
    ∃ segment : Segment, segment.entry = draft.entry sources names ∧
      applyNumbers (.array (sources.map .string)) names baseline.registers written
        (baseline.differences draft) = .ok ((baseline.advance draft).registers, segment) := by
  obtain ⟨column, origin⟩ := draft
  have moved (base next : Nat) : (base : Int) + ((next : Int) - base) = next := by omega
  cases origin with
  | none =>
    refine ⟨⟨column, .null, baseline.line, baseline.sourceColumn, none⟩, rfl, ?_⟩
    have placed := Baseline.registers_segment (baseline.advance ⟨column, none⟩) .null none
    simp only [Baseline.differences, applyNumbers, Baseline.registers, moved] at placed ⊢
    simp only [Baseline.advance] at placed ⊢
    rw [placed]
    rfl
  | some origin =>
    have source := inRange.source origin rfl
    have found := sourceOf_of_lt source written
    have placed := Baseline.registers_segment (baseline.advance ⟨column, some origin⟩)
      (.string sources[origin.source]) (origin.name.bind (names[·]?))
    refine ⟨⟨column, .string sources[origin.source], origin.line, origin.column,
      origin.name.bind (names[·]?)⟩, ?_, ?_⟩
    · simp [Segment.entry, Segment.position?, Draft.entry, Draft.position?, source]
    · cases name : origin.name with
      | none =>
        simp only [Baseline.registers, Baseline.advance, name, Option.getD_none,
          Option.bind_none] at placed ⊢
        simp only [Baseline.differences, name, applyNumbers, moved, found, bind, Except.bind,
          List.headD_nil, Int.add_zero, List.isEmpty_nil, if_true, pure, Except.pure, placed]
      | some number =>
        have small := inRange.name origin rfl number name
        have named := nameOf_of_lt small written
        simp only [Baseline.registers, Baseline.advance, name, Option.getD_some,
          Option.bind_some, List.getElem?_eq_getElem small] at placed ⊢
        simp only [Baseline.differences, name, List.cons_append, List.nil_append, applyNumbers,
          moved, found, bind, Except.bind, List.headD_cons, List.isEmpty_cons, Bool.false_eq_true,
          if_false, named, Except.map, pure, Except.pure, placed]

/-- A segment has at least the number of its column. -/
theorem differences_eq_cons (baseline : Baseline) (draft : Draft) :
    ∃ column place, baseline.differences draft = column :: place := by
  unfold Baseline.differences
  dsimp only
  split
  · exact ⟨_, _, rfl⟩
  · split <;> exact ⟨_, _, rfl⟩

/-- The segments of a line decode to what was drafted, from the registers in front of the line to
those behind it. -/
theorem decodeSegments_writeSegments {drafts : List Draft}
    (inRange : ∀ draft ∈ drafts, draft.InRange sources names) (baseline : Baseline) :
    ∃ segments : List Segment,
      segments.map Segment.entry = drafts.map (Draft.entry sources names) ∧
      decodeSegments (.array (sources.map .string)) names baseline.registers
          (writeSegments baseline drafts).1 =
        .ok ((writeSegments baseline drafts).2.registers, segments) := by
  induction drafts generalizing baseline with
  | nil => exact ⟨[], rfl, rfl⟩
  | cons draft drafts inductionHypothesis =>
    obtain ⟨segments, entries, decoded⟩ := inductionHypothesis
      (fun next isIn => inRange next (List.mem_cons_of_mem _ isIn)) (baseline.advance draft)
    obtain ⟨segment, entry, applied⟩ := applyNumbers_differences
      (inRange draft List.mem_cons_self) baseline (Vlq.encode (baseline.differences draft))
    obtain ⟨column, place, numbers⟩ := differences_eq_cons baseline draft
    have some : (Vlq.encode (baseline.differences draft)).isEmpty = false := by
      rw [numbers]
      exact List.isEmpty_eq_false_iff.2 (Vlq.encode_cons_ne_nil column place)
    have readable : segmentNumbers (Vlq.encode (baseline.differences draft)) =
        .ok (baseline.differences draft) := by
      unfold segmentNumbers
      rw [Vlq.decode_encode]
    refine ⟨segment :: segments, by rw [List.map_cons, List.map_cons, entry, entries], ?_⟩
    simp only [writeSegments, decodeSegments, some, Bool.false_eq_true, if_false, readable, bind,
      Except.bind, applied, decoded, pure, Except.pure]

/-- What is written for a line has no character but digits of numbers. -/
theorem not_mem_writeSegments (char : Char) (noDigit : char ∉ Vlq.alphabet) (baseline : Baseline)
    (drafts : List Draft) : ∀ written ∈ (writeSegments baseline drafts).1, char ∉ written := by
  induction drafts generalizing baseline with
  | nil => exact fun written isIn => absurd isIn List.not_mem_nil
  | cons draft drafts inductionHypothesis =>
    intro written isIn
    rcases List.mem_cons.1 isIn with rfl | isIn
    · exact Vlq.not_mem_encode noDigit _
    · exact inductionHypothesis _ written isIn

/-- Cutting a written line gives its segments; the single empty piece of an empty line means
nothing. -/
theorem decodeSegments_pieces (registers : Registers) {written : List (List Char)}
    (clean : ∀ text ∈ written, ',' ∉ text) :
    decodeSegments (.array (sources.map .string)) names registers
        (Text.pieces ',' (List.intercalate [','] written)) =
      decodeSegments (.array (sources.map .string)) names registers written := by
  cases written with
  | nil => rfl
  | cons first written => rw [Text.pieces_intercalate (List.cons_ne_nil _ _) clean]

/-- Written lines decode to what was drafted. -/
theorem decodeLines_writeLines {lines : List (List Draft)}
    (inRange : ∀ drafts ∈ lines, ∀ draft ∈ drafts, draft.InRange sources names)
    (baseline : Baseline) :
    ∃ decoded : List (List Segment),
      decoded.map (List.map Segment.entry) = lines.map (List.map (Draft.entry sources names)) ∧
      decodeLines (.array (sources.map .string)) names baseline.registers
        (writeLines baseline lines) = .ok decoded := by
  induction lines generalizing baseline with
  | nil => exact ⟨[], rfl, rfl⟩
  | cons drafts lines inductionHypothesis =>
    obtain ⟨segments, entries, first⟩ := decodeSegments_writeSegments
      (inRange drafts List.mem_cons_self) baseline.newLine
    obtain ⟨decoded, behindEntries, behind⟩ := inductionHypothesis
      (fun next isIn => inRange next (List.mem_cons_of_mem _ isIn))
      (writeSegments baseline.newLine drafts).2
    have clean := not_mem_writeSegments ',' (by decide) baseline.newLine drafts
    refine ⟨segments :: decoded, by rw [List.map_cons, List.map_cons, entries, behindEntries], ?_⟩
    simp only [writeLines, decodeLines, ← Baseline.registers_newLine, decodeSegments_pieces _ clean,
      first, bind, Except.bind, behind, pure, Except.pure]

/-- No semicolon occurs in a written line. -/
theorem not_mem_writeLines (baseline : Baseline) (lines : List (List Draft)) :
    ∀ written ∈ writeLines baseline lines, ';' ∉ written := by
  induction lines generalizing baseline with
  | nil => exact fun written isIn => absurd isIn List.not_mem_nil
  | cons drafts lines inductionHypothesis =>
    intro written isIn
    rcases List.mem_cons.1 isIn with rfl | isIn
    · have clean := not_mem_writeSegments ';' (by decide) baseline.newLine drafts
      intro isChar
      rcases Text.mem_intercalate isChar with comma | ⟨text, isText, isChar⟩
      · exact absurd comma (by decide)
      · exact clean text isText isChar
    · exact inductionHypothesis _ written isIn

/-- Written mappings decode to what was drafted on every line; a line behind the last one says as
little as an empty one. -/
theorem decodeMappings_writeMappings {lines : List (List Draft)}
    (inRange : ∀ drafts ∈ lines, ∀ draft ∈ drafts, draft.InRange sources names) :
    ∃ index : Index,
      decodeMappings (.array (sources.map .string)) names (writeMappings lines) = .ok index ∧
      ∀ row, (index.lines.getD row []).map Segment.entry =
        (lines.getD row []).map (Draft.entry sources names) := by
  cases lines with
  | nil =>
    refine ⟨⟨[[]]⟩, rfl, fun row => ?_⟩
    cases row <;> rfl
  | cons drafts lines =>
    obtain ⟨decoded, entries, equation⟩ := decodeLines_writeLines inRange Baseline.start
    have clean := not_mem_writeLines Baseline.start (drafts :: lines)
    have pieces : Text.pieces ';' (writeMappings (drafts :: lines)) =
        writeLines .start (drafts :: lines) :=
      Text.pieces_intercalate (List.cons_ne_nil _ _) clean
    refine ⟨⟨decoded⟩, ?_, fun row => ?_⟩
    · have start : Baseline.start.registers = Registers.start := rfl
      rw [start] at equation
      simp only [decodeMappings, pieces, equation, bind, Except.bind, pure,
        Except.pure]
    · have same : (decoded.map (List.map Segment.entry))[row]? =
          ((drafts :: lines).map (List.map (Draft.entry sources names)))[row]? := by rw [entries]
      rw [List.getElem?_map, List.getElem?_map] at same
      rw [List.getD_eq_getElem?_getD, List.getD_eq_getElem?_getD]
      cases left : decoded[row]? with
      | none =>
        rw [left] at same
        rw [Option.map_eq_none_iff.1 same.symm]
        rfl
      | some segments =>
        rw [left] at same
        obtain ⟨drafted, right, equal⟩ := Option.map_eq_some_iff.1 same.symm
        rw [right]
        exact equal.symm

end Decoding

end Retrace.SourceMap
