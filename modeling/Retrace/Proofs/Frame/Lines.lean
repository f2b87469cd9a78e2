import Retrace.Conversion.Frames
import Retrace.Proofs.Number.Digits

/-!
# The lines that a frame can give

A frame whose own numbers can be written has a line of its own place under every comment. `Gives`
lists all lines that converting a frame may end with; each of them begins like a written frame.
-/

namespace Retrace

/-- A wording that is always there may be used as it is. -/
@[simp]
theorem Telling.plain_words_bind {α : Type} (fault : Fault) (next : String → Except Fault α) :
    (plain.words fault >>= next) = next fault.message := rfl

namespace Frame

/-- The frame's own numbers have few enough digits to be written. -/
structure Writable (frame : Frame) : Prop where
  line : ∀ number ∈ frame.line, Number.Writable number
  column : ∀ number ∈ frame.column, Number.Writable number

/-- A frame whose own numbers have one digit each can be written. -/
theorem writable_of_lt {frame : Frame}
    (small : (∀ number ∈ frame.line, number.natAbs < 10) ∧
      ∀ number ∈ frame.column, number.natAbs < 10) : frame.Writable := by
  constructor
  · intro number isLine
    exact Number.writable_of_lt (small.1 number isLine)
  · intro number isColumn
    exact Number.writable_of_lt (small.2 number isColumn)

/-- The digits of a number, or nothing if it is unknown. -/
def numeral : Option Int → String
  | none => ""
  | some number => String.ofList (Number.decimal number)

/-- The frame's own place in parentheses, or nothing if neither number is known. -/
def ownPlace (frame : Frame) : String :=
  if frame.hasLocation then
    " (" ++ frame.file ++ ":" ++ numeral frame.line ++ ":" ++ numeral frame.column ++ ")"
  else ""

/-- The line of a frame without a place. -/
def methodLine (frame : Frame) : String :=
  indent ++ "at " ++ named frame.method unknownMethod

/-- The line of a frame at its own place with a comment behind it. -/
def ownLine (frame : Frame) (comment : String) : String :=
  frame.methodLine ++ frame.ownPlace ++ commentMark ++ comment

/-- The frame asks for a line of its file. -/
def asksForLine (frame : Frame) : Bool :=
  frame.line.any fun line => 1 ≤ line

/-- A frame without a line asks for none. -/
theorem not_asksForLine_of_none {frame : Frame} (noLine : frame.line = none) :
    frame.asksForLine = false := by
  rw [asksForLine, noLine]
  rfl

/-- A frame whose line is below the first one asks for none. -/
theorem not_asksForLine_of_lt {frame : Frame} {line : Int} (isLine : frame.line = some line)
    (tooSmall : line < 1) : frame.asksForLine = false := by
  rw [asksForLine, isLine, Option.any_some, decide_eq_false_iff_not]
  exact Int.not_le.2 tooSmall

/-- A frame asks for any other line. -/
theorem asksForLine_of_not_lt {frame : Frame} {line : Int} (isLine : frame.line = some line)
    (large : ¬ line < 1) : frame.asksForLine = true := by
  rw [asksForLine, isLine, Option.any_some, decide_eq_true_iff]
  exact Int.not_lt.1 large

/-- The lines that converting a frame may end with. -/
inductive Gives (frame : Frame) : String → Prop where
  /-- The frame keeps its place and tells why the source map of its file cannot be used. -/
  | withoutMap (detail : String) : Gives frame (frame.ownLine (mapFailureComment detail))
  /-- The frame keeps its place and tells why the line that it asks for cannot be converted. -/
  | unconverted (asks : frame.asksForLine = true) (detail : String) :
      Gives frame (frame.ownLine (positionFailureComment detail))
  /-- The frame has no place to convert. -/
  | methodLine (nowhere : frame.hasLocation = false) : Gives frame frame.methodLine
  /-- The frame has a place but asks for no line. -/
  | bareLine (somewhere : frame.hasLocation = true) (asksNot : frame.asksForLine = false) :
      Gives frame (bareLineText frame.method)
  /-- The frame stands at the place of the sources that was found for the line that it asks for. -/
  | placed (asks : frame.asksForLine = true) {position : SourceMap.Position} {text : String}
      (known : position.line ≠ none) (counted : position.line ≠ some 0)
      (written : lineText (frame.methodAt position) position.source.display position.line
        position.column none = .ok text) : Gives frame text

/-- A known number that has few enough digits is written as its digits, and an unknown one as
nothing. -/
theorem numberText_of_writable {number : Option Int}
    (writable : ∀ value ∈ number, Number.Writable value) :
    numberText number = .ok (numeral number) := by
  cases number with
  | none => rfl
  | some value =>
    have written := Number.writeInteger_of_writable (writable value rfl)
    simp [numberText, numeral, written, Except.map]

/-- A frame with writable numbers is written at its own place. -/
theorem locationText_of_writable {frame : Frame} (writable : frame.Writable) :
    locationText frame.file frame.line frame.column = .ok frame.ownPlace := by
  unfold locationText ownPlace hasLocation
  rw [numberText_of_writable writable.line, numberText_of_writable writable.column]
  split <;> rfl

/-- A frame with writable numbers gets every comment. -/
theorem commented_of_writable {frame : Frame} (writable : frame.Writable) (comment : String)
    (nonempty : comment.isEmpty = false) : frame.commented comment = .ok (frame.ownLine comment) := by
  have written : lineText frame.method frame.file frame.line frame.column (some comment) =
      .ok (frame.ownLine comment) := by
    unfold lineText
    rw [locationText_of_writable writable]
    simp [bind, Except.bind, pure, Except.pure, commentText, nonempty, ownLine, methodLine,
      String.append_assoc]
  rw [commented, written]
  rfl

/-- A comment that closes a parenthesis is not empty. -/
theorem isEmpty_append_closing (detail : String) : (detail ++ ")").isEmpty = false := by
  rw [← Bool.not_eq_true, String.isEmpty_iff, String.append_eq_empty_iff]
  rintro ⟨-, closing⟩
  exact absurd closing (by decide)

/-- A frame with writable numbers can say why its source map cannot be used. -/
theorem withoutMap_of_writable {frame : Frame} (writable : frame.Writable) (detail : String) :
    frame.withoutMap detail = .ok (frame.ownLine (mapFailureComment detail)) :=
  commented_of_writable writable (mapFailureComment detail) (isEmpty_append_closing _)

/-- A frame with writable numbers can say why its position cannot be converted. -/
theorem unconverted_of_writable {frame : Frame} (writable : frame.Writable) (detail : String) :
    frame.unconverted detail = .ok (frame.ownLine (positionFailureComment detail)) :=
  commented_of_writable writable (positionFailureComment detail) (isEmpty_append_closing _)

/-- A frame without a place is written as its method alone. -/
theorem lineText_nowhere (frame : Frame) :
    lineText frame.method frame.file none none none = .ok frame.methodLine := by
  simp [lineText, locationText, bind, Except.bind, pure, Except.pure, commentText, methodLine]

/-- What every written frame begins with. -/
def opening : String := "    at "

/-- A text begins as every written frame does. -/
def Opens (line : String) : Prop :=
  opening.toList <+: line.toList

theorem opens_append (rest : String) : Opens (indent ++ "at " ++ rest) := by
  refine ⟨rest.toList, ?_⟩
  rw [String.toList_append]
  rfl

/-- A written line begins as every written frame does. -/
theorem opens_of_lineText {method : Option String} {file text : String} {line column : Option Int}
    {comment : Option String} (written : lineText method file line column comment = .ok text) :
    Opens text := by
  unfold lineText at written
  cases place : locationText file line column with
  | error fault => simp [place, bind, Except.bind] at written
  | ok location =>
    simp only [place, bind, Except.bind, pure, Except.pure, Except.ok.injEq] at written
    rw [← written, String.append_assoc, String.append_assoc]
    exact opens_append _

/-- The frame's own line begins as every written frame does. -/
theorem opens_ownLine (frame : Frame) (comment : String) : Opens (frame.ownLine comment) := by
  rw [ownLine, methodLine, String.append_assoc, String.append_assoc, String.append_assoc]
  exact opens_append _

/-- Every line that converting a frame may end with begins as every written frame does. -/
theorem Gives.opens {frame : Frame} {line : String} (gives : frame.Gives line) : Opens line := by
  cases gives with
  | withoutMap detail => exact opens_ownLine frame _
  | unconverted asks detail => exact opens_ownLine frame _
  | methodLine nowhere =>
    rw [Frame.methodLine]
    exact opens_append _
  | bareLine somewhere asksNot =>
    rw [bareLineText]
    exact opens_append _
  | placed asks known counted written => exact opens_of_lineText written

end Frame

end Retrace
