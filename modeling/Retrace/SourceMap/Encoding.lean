import Retrace.Json.Writer
import Retrace.SourceMap.Vlq

/-!
# Writing source maps

A source map is written from drafts of its segments, which refer to sources and names by number. The
numbers of a segment are written as differences to the segment before it.
-/

namespace Retrace.SourceMap

/-- Where the code of a drafted segment comes from. Lines and columns count from zero. -/
structure Origin where
  source : Nat
  line : Nat
  column : Nat
  name : Option Nat
  deriving DecidableEq, Repr

/-- A segment to be written: from a generated column on, the code comes from an origin, or from
nowhere. -/
structure Draft where
  column : Nat
  origin : Option Origin
  deriving DecidableEq, Repr

/-- What the next differences are taken to. -/
structure Baseline where
  column : Nat
  source : Nat
  line : Nat
  sourceColumn : Nat
  name : Nat
  deriving DecidableEq, Repr

namespace Baseline

/-- In front of all segments. -/
def start : Baseline := ⟨0, 0, 0, 0, 0⟩

/-- At the front of a line. -/
def newLine (baseline : Baseline) : Baseline :=
  { baseline with column := 0 }

/-- Behind a segment. -/
def advance (baseline : Baseline) (draft : Draft) : Baseline :=
  match draft.origin with
  | none => { baseline with column := draft.column }
  | some origin => {
      column := draft.column
      source := origin.source
      line := origin.line
      sourceColumn := origin.column
      name := origin.name.getD baseline.name }

/-- The numbers of a segment. -/
def differences (baseline : Baseline) (draft : Draft) : List Int :=
  let column : Int := draft.column - baseline.column
  match draft.origin with
  | none => [column]
  | some origin =>
    let place : List Int :=
      [column, origin.source - baseline.source, origin.line - baseline.line,
       origin.column - baseline.sourceColumn]
    match origin.name with
    | none => place
    | some name => place ++ [(name : Int) - baseline.name]

end Baseline

/-- Writes the segments of a line. -/
def writeSegments (baseline : Baseline) : List Draft → List (List Char) × Baseline
  | [] => ([], baseline)
  | draft :: drafts =>
    let (segments, after) := writeSegments (baseline.advance draft) drafts
    (Vlq.encode (baseline.differences draft) :: segments, after)

/-- Writes lines of segments. -/
def writeLines (baseline : Baseline) : List (List Draft) → List (List Char)
  | [] => []
  | drafts :: rest =>
    let (segments, after) := writeSegments baseline.newLine drafts
    List.intercalate [','] segments :: writeLines after rest

/-- Writes the mappings of generated code. -/
def writeMappings (lines : List (List Draft)) : List Char :=
  List.intercalate [';'] (writeLines .start lines)

/-- The document of a source map. -/
def document (sources names : List String) (lines : List (List Draft)) : Json :=
  .object
    [("version", .integer 3), ("sources", .array (sources.map .string)),
     ("names", .array (names.map .string)),
     ("mappings", .string (String.ofList (writeMappings lines)))]

/-- The text of a source map. -/
def writeDocument (sources names : List String) (lines : List (List Draft)) : String :=
  String.ofList (document sources names lines).write

end Retrace.SourceMap
