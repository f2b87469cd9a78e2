import Retrace.SourceMap.Document
import Retrace.Text.Search

/-!
# Finding source positions

A plain document is one source map. An indexed document has sections, each a source map of its own
that covers the generated code from its offset up to the next one. Inside a section lines count from
the section's first line; columns count from the section's first column on that line only.
-/

namespace Retrace.SourceMap

/-- A section of an indexed document. Lines and columns count from zero. -/
structure Section where
  line : Int
  column : Int
  index : Index
  deriving Repr, BEq

namespace Section

/-- The section does not begin behind a place. -/
def startsBy (part : Section) (line column : Int) : Bool :=
  part.line < line || (part.line = line && part.column ≤ column)

/-- The section does not begin behind another one. -/
def startsNoLater (first second : Section) : Bool :=
  first.startsBy second.line second.column

/-- The source place of a generated line and column, counted from zero, inside the section. -/
def locate (part : Section) (line column : Int) : Option Position :=
  part.index.locate (line - part.line + 1)
    (some (if line = part.line then column - part.column else column))

end Section

/-- The order of the offsets; sections of equal offsets keep their order. -/
def sortSections (sections : List Section) : List Section :=
  sections.mergeSort Section.startsNoLater

/-- The source place of a generated line, counted from one, and column, counted from zero, by
sections in the order of their offsets: the last section that does not begin behind it decides. -/
def locateInSections (sections : List Section) (line : Int) (column : Option Int) :
    Option Position :=
  let row := line - 1
  let column := column.getD 0
  if row < 0 || column < 0 then none
  else
    match (sections.takeWhile fun part => part.startsBy row column).getLast? with
    | none => none
    | some part => part.locate row column

/-- A document that is ready for look-up. -/
inductive Resolver where
  | plain (index : Index)
  | indexed (sections : List Section)
  deriving Repr, BEq

/-- The source place of a generated line, counted from one, and column, counted from zero. -/
def Resolver.locate : Resolver → Int → Option Int → Option Position
  | .plain index => index.locate
  | .indexed sections => locateInSections sections

/-- A value names a word: as the key of an object, an item of an array or a part of a text. -/
def mentions (wanted : String) : Json → Except Fault Bool
  | .object fields => .ok (Json.find? wanted fields).isSome
  | .array items => .ok (items.any fun item => item.text? = some wanted)
  | .string text => .ok (Text.occurs wanted.toList text.toList)
  | _ => .error .shape

/-- The value of a key, where only objects have keys. -/
def valueOf (key : String) : Json → Except Fault Json
  | .object fields => required key fields
  | _ => .error .shape

/-- The integer that a value stands for. -/
def integerOf : Json → Except Fault Int
  | .integer value => .ok value
  | .bool value => .ok (if value then 1 else 0)
  | .float .nan => .error (.numeral .notANumber)
  | .float value =>
    match value.truncate? with
    | some value => .ok value
    | none => .error .overflow
  | .string text => (Number.readInteger text.toList).mapError .numeral
  | _ => .error .shape

/-- Decodes a section, which has to embed its map. -/
def decodeSection (value : Json) : Except Fault Section := do
  if ← mentions "map" value then
    let offset ← valueOf "offset" value
    let index ← decodeValue (← valueOf "map" value)
    let line ← integerOf (← valueOf "line" offset)
    let column ← integerOf (← valueOf "column" offset)
    return ⟨line, column, index⟩
  else .error (.value "indexed source map sections must embed their map")

/-- The sections of an indexed document, if the text is one. -/
def sectionsOf? (text : List Char) : Option Json :=
  match Json.read text with
  | .ok value => value.field? "sections"
  | .error _ => none

/-- Decodes the text of a document. -/
def Resolver.ofText (text : String) : Except Fault Resolver :=
  match sectionsOf? text.toList with
  | none => (decodeText text.toList).map .plain
  | some sections => do
    let sections ← (← elements sections).mapM decodeSection
    return .indexed (sortSections sections)

end Retrace.SourceMap
