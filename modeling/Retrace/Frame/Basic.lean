/-!
# Stack frames

A frame is one call site of a stack: the method that was running and where in which file. The line
counts from one; the column is what the stack says, which differs between engines.
-/

namespace Retrace

/-- One call site of a stack. -/
structure Frame where
  /-- The method, if the stack names one. -/
  method : Option String
  /-- The file as the stack writes it. -/
  file : String
  line : Option Int
  column : Option Int
  deriving DecidableEq, Repr

namespace Frame

/-- The frame has a line or a column. -/
def hasLocation (frame : Frame) : Bool :=
  frame.line.isSome || frame.column.isSome

end Frame

end Retrace
