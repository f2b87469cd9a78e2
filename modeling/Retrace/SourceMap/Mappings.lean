import Retrace.Fault
import Retrace.SourceMap.Index
import Retrace.SourceMap.Vlq
import Retrace.Text.Lines

/-!
# Decoding the mappings of a source map

Semicolons separate the lines of the generated code and commas the segments of a line; empty
segments mean nothing. The numbers of a segment are differences to the segment before it: its
generated column, and then the source, the line and the column there, and a name. The column starts
anew on every line, and everything else goes on.
-/

namespace Retrace.SourceMap

/-- What the differences of the next segment are added to. -/
structure Registers where
  column : Int
  source : Int
  sourceLine : Int
  sourceColumn : Int
  name : Int
  deriving DecidableEq, Repr

namespace Registers

/-- In front of all segments. -/
def start : Registers := ⟨0, 0, 0, 0, 0⟩

/-- At the front of a line. -/
def newLine (registers : Registers) : Registers :=
  { registers with column := 0 }

/-- The segment that the registers place, if no generated column, source line or source column is
negative. -/
def segment (registers : Registers) (source : Json) (name : Option String) :
    Except Fault Segment :=
  if registers.column < 0 || registers.sourceLine < 0 || registers.sourceColumn < 0 then
    .error .attribute
  else .ok {
    column := registers.column.toNat
    source := source
    sourceLine := registers.sourceLine.toNat
    sourceColumn := registers.sourceColumn.toNat
    name := name }

end Registers

/-- The number of sources. Something that has no items has no such number. -/
def sourceCount : Json → Except Fault Nat
  | .array items => .ok items.length
  | .string text => .ok text.length
  | .object fields => .ok fields.length
  | _ => .error .shape

/-- The source at a place within the number of sources. The characters of a text are sources, and
the fields of an object are none. -/
def sourceAt (sources : Json) (place : Nat) : Except Fault Json :=
  match sources with
  | .array items => .ok (items.getD place .null)
  | .string text => .ok (.string (String.ofList ((text.toList.drop place).take 1)))
  | .object _ => .error (.missingKey place.repr)
  | _ => .error .shape

/-- The source of a number, for a segment that refers to it. -/
def sourceOf (sources : Json) (written : List Char) (number : Int) : Except Fault Json := do
  let count ← sourceCount sources
  if 0 ≤ number && number < count then sourceAt sources number.toNat
  else .error (.ofSegment (.noSource written number count))

/-- The name of a number, for a segment that refers to it. -/
def nameOf (names : List String) (written : List Char) (number : Int) : Except Fault String :=
  match if number < 0 then none else names[number.toNat]? with
  | some name => .ok name
  | none => .error (.ofSegment (.noName written number names.length))

/-- The numbers of a written segment. -/
def segmentNumbers (written : List Char) : Except Fault (List Int) :=
  match Vlq.decode written with
  | .ok numbers => .ok numbers
  | .error .beyondDigits => .error .index
  | .error .unfinished => .error (.segment .unfinished)

/-- Adds the numbers of a segment to the registers and places the segment. A source needs a line and
a column; numbers behind the name mean nothing. -/
def applyNumbers (sources : Json) (names : List String) (registers : Registers)
    (written : List Char) (numbers : List Int) : Except Fault (Registers × Segment) :=
  match numbers with
  | [] => .error .index
  | [column] => do
    let registers := { registers with column := registers.column + column }
    return (registers, ← registers.segment .null none)
  | column :: source :: place => do
    let found ← sourceOf sources written (registers.source + source)
    match place with
    | sourceLine :: sourceColumn :: name =>
      let registers := {
        column := registers.column + column
        source := registers.source + source
        sourceLine := registers.sourceLine + sourceLine
        sourceColumn := registers.sourceColumn + sourceColumn
        name := registers.name + name.headD 0 }
      let named ← if name.isEmpty then pure none else (nameOf names written registers.name).map some
      return (registers, ← registers.segment found named)
    | _ => .error (.ofSegment (.incomplete written numbers))

/-- Decodes the segments of a line from the given registers on. -/
def decodeSegments (sources : Json) (names : List String) (registers : Registers) :
    List (List Char) → Except Fault (Registers × List Segment)
  | [] => .ok (registers, [])
  | written :: rest => do
    if written.isEmpty then decodeSegments sources names registers rest
    else
      let numbers ← segmentNumbers written
      let (registers, segment) ← applyNumbers sources names registers written numbers
      let (registers, segments) ← decodeSegments sources names registers rest
      return (registers, segment :: segments)

/-- Decodes lines from the given registers on. -/
def decodeLines (sources : Json) (names : List String) (registers : Registers) :
    List (List Char) → Except Fault (List (List Segment))
  | [] => .ok []
  | line :: rest => do
    let (registers, segments) ←
      decodeSegments sources names registers.newLine (Text.pieces ',' line)
    return segments :: (← decodeLines sources names registers rest)

/-- Decodes mappings. -/
def decodeMappings (sources : Json) (names : List String) (mappings : List Char) :
    Except Fault Index := do
  return ⟨← decodeLines sources names .start (Text.pieces ';' mappings)⟩

end Retrace.SourceMap
