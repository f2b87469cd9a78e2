import Retrace.Frame.Basic
import Retrace.Frame.Grammar
import Retrace.Number.Numeral
import Retrace.Text.Lines
import Retrace.Text.Search

/-!
# Reading stack frames

A line is a frame if one of the grammars matches it, and the first grammar that does decides. All
other lines of a stack are skipped. A line or column number of too many digits is a fault.
-/

namespace Retrace

open Number (NumeralFault)

/-- The parts of a stack line as they are written. -/
structure WrittenFrame where
  method : List Char
  file : List Char
  line : Option (List Char)
  column : Option (List Char)
  deriving DecidableEq, Repr

namespace WrittenFrame

/-- The captured parts of a line. -/
def ofCaptures (line : List Char) (captures : Captures) : WrittenFrame where
  method := (captures.text? .method line).getD []
  file := (captures.text? .file line).getD []
  line := captures.text? .line line
  column := captures.text? .column line

/-- Moves a frame of evaluated code to the place of the evaluation, if the file tells one with both
a line and a column. -/
def outOfEval (frame : WrittenFrame) : WrittenFrame :=
  if "eval".toList.isPrefixOf frame.file then
    match Grammar.chromeOriginPattern.search? frame.file with
    | some captures => { ofCaptures frame.file captures with method := frame.method }
    | none => frame
  else frame

/-- Moves a frame of evaluated code to the line of the outermost evaluation, if the file tells one;
the column inside the evaluated code means nothing there. -/
def outOfNestedEval (frame : WrittenFrame) : WrittenFrame :=
  if Text.occurs " > eval".toList frame.file then
    match Grammar.geckoOriginPattern.search? frame.file with
    | some captures => { ofCaptures frame.file captures with method := frame.method }
    | none => frame
  else frame

/-- Reads a number that may be missing. -/
def number? : Option (List Char) → Except NumeralFault (Option Int)
  | none => .ok none
  | some digits => (Number.readDigits digits).map fun value => some (value : Int)

/-- The frame that the written parts mean. An empty method is none. -/
def frame (written : WrittenFrame) : Except NumeralFault Frame := do
  let line ← number? written.line
  let column ← number? written.column
  return {
    method := if written.method.isEmpty then none else some (String.ofList written.method)
    file := String.ofList written.file
    line := line
    column := column }

end WrittenFrame

namespace Grammar

/-- Finds the real place of a frame of evaluated code, in the forms that tell it. -/
def resolveEval : Grammar → WrittenFrame → WrittenFrame
  | .chrome, frame => frame.outOfEval
  | .gecko, frame => frame.outOfNestedEval
  | _, frame => frame

/-- The written parts of a line that has this form. -/
def written? (grammar : Grammar) (line : List Char) : Option WrittenFrame :=
  (grammar.pattern.matchFront? line).map fun captures =>
    grammar.resolveEval (WrittenFrame.ofCaptures line captures)

/-- The frame of a line, or none if the line does not have this form. -/
def readFrame (grammar : Grammar) (line : List Char) : Except NumeralFault (Option Frame) :=
  match grammar.written? line with
  | none => .ok none
  | some written => written.frame.map some

end Grammar

namespace Frame

/-- The frame of a line by the first of some grammars that matches it. -/
def readBy (grammars : List Grammar) (line : List Char) : Except NumeralFault (Option Frame) :=
  match grammars.findSome? (·.written? line) with
  | none => .ok none
  | some written => written.frame.map some

/-- The frame of a stack line, or none if the line is no frame. -/
def ofLine (line : List Char) : Except NumeralFault (Option Frame) :=
  readBy Grammar.all line

/-- The frames of some lines, in their order. -/
def ofLines : List (List Char) → Except NumeralFault (List Frame)
  | [] => .ok []
  | line :: lines => do
    match ← ofLine line with
    | none => ofLines lines
    | some frame => return frame :: (← ofLines lines)

/-- The frames of a stack, in the order of its lines. -/
def ofStack (stack : String) : Except NumeralFault (List Frame) :=
  ofLines (Text.lines stack.toList)

end Frame

end Retrace
