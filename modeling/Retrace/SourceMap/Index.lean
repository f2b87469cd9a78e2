import Retrace.Json.Basic

/-!
# Decoded source maps

A decoded source map holds the segments of every line of the generated code, in the order of the
document. A segment covers the generated columns from its own one on. Where several segments of a
line have the same column, the last one counts.
-/

namespace Retrace.SourceMap

/-- A place in the code that a program was made from. -/
structure Position where
  /-- The source as the map writes it, which need not be a text. -/
  source : Json
  /-- Counts from one. -/
  line : Option Int
  /-- Counts from zero. -/
  column : Option Int
  name : Option String
  deriving Repr, BEq

/-- A segment: from a generated column on, the code comes from a place in a source. Lines and columns
count from zero. Without a source, or with null as the source, the code comes from nowhere. -/
structure Segment where
  column : Nat
  source : Json
  sourceLine : Nat
  sourceColumn : Nat
  name : Option String
  deriving Repr, BEq

/-- The source place of a segment, if it has a source. -/
def Segment.position? (segment : Segment) : Option Position :=
  match segment.source with
  | .null => none
  | source => some {
      source := source
      line := some (segment.sourceLine + 1 : Nat)
      column := some segment.sourceColumn
      name := segment.name }

/-- The number of entries that stand before or at the wanted one, by bisection between `low` and
`high`. The entries need not be in order; the bisection then ends behind some entry that is not
above the wanted one, or at `low`. -/
def upperBound (entries : List Nat) (wanted low high : Nat) : Nat :=
  if low < high then
    let middle := (low + high) / 2
    if wanted < entries.getD middle 0 then upperBound entries wanted low middle
    else upperBound entries wanted (middle + 1) high
  else low
termination_by high - low

/-- The segments of the generated code, line by line. -/
structure Index where
  lines : List (List Segment)
  deriving Repr, BEq

namespace Index

/-- The last segment at exactly a column. -/
def lastAt? (segments : List Segment) (column : Nat) : Option Segment :=
  (segments.filter (·.column = column)).getLast?

/-- The segment that covers a column of a line: one at exactly this column, or the one whose column
the bisection finds. -/
def covering? (segments : List Segment) (column : Nat) : Option Segment :=
  match lastAt? segments column with
  | some segment => some segment
  | none =>
    let columns := segments.map (·.column)
    match upperBound columns column 0 columns.length with
    | 0 => none
    | place + 1 => columns[place]?.bind (lastAt? segments)

/-- The source place of a generated line, counted from one, and column, counted from zero; a
missing column is the first one. -/
def locate (index : Index) (line : Int) (column : Option Int) : Option Position :=
  let row := line - 1
  let column := column.getD 0
  if row < 0 || column < 0 then none
  else
    match index.lines[row.toNat]? with
    | none => none
    | some segments => (covering? segments column.toNat).bind Segment.position?

end Index

end Retrace.SourceMap
