import Retrace.Frame.Basic
import Retrace.Number.Numeral

/-!
# Writing stack frames

All frames are written in one form, whatever form they were read from:
`    at method (file:line:column)`, with a comment behind it if something went wrong.
-/

namespace Retrace.Frame

open Number (NumeralFault)

/-- What stands in front of every frame. -/
def indent : String := "    "

/-- What separates a frame from its comment. -/
def commentMark : String := "  ***"

/-- The name of a method that has none. -/
def unknownMethod : String := "<unknown>"

/-- A name, or something else in its place if there is none; an empty name counts as none. -/
def named (name : Option String) (otherwise : String) : String :=
  match name with
  | some name => if name.isEmpty then otherwise else name
  | none => otherwise

/-- A number, or nothing if it is unknown. -/
def numberText : Option Int → Except NumeralFault String
  | none => .ok ""
  | some number => (Number.writeInteger number).map String.ofList

/-- The place of a frame in parentheses, or nothing if neither number is known. -/
def locationText (file : String) (line column : Option Int) : Except NumeralFault String :=
  if line.isSome || column.isSome then do
    let line ← numberText line
    let column ← numberText column
    return " (" ++ file ++ ":" ++ line ++ ":" ++ column ++ ")"
  else .ok ""

/-- A comment behind a frame, or nothing if it says nothing. -/
def commentText (comment : Option String) : String :=
  match comment with
  | some comment => if comment.isEmpty then "" else commentMark ++ comment
  | none => ""

/-- The line of a frame, with its place and a comment if it has them. -/
def lineText (method : Option String) (file : String) (line column : Option Int)
    (comment : Option String) : Except NumeralFault String := do
  let location ← locationText file line column
  return indent ++ "at " ++ named method unknownMethod ++ location ++ commentText comment

/-- The line of a frame without its place; a missing method leaves its name out. -/
def bareLineText (method : Option String) : String :=
  indent ++ "at " ++ named method ""

/-- The comment on a frame whose source map cannot be used. -/
def mapFailureComment (detail : String) : String :=
  "Error loading source map for frame (" ++ detail ++ ")"

/-- The comment on a frame whose position cannot be converted. -/
def positionFailureComment (detail : String) : String :=
  "Could not convert stack frame (" ++ detail ++ ")"

end Retrace.Frame
