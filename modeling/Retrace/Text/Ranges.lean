/-!
# Sets of characters given by ranges

A character property of the Unicode standard is kept as a list of closed ranges of code points.
Membership is decided by walking the list, so a property is plain data and its size can be computed.
-/

namespace Retrace.Text

/-- Closed ranges of code points, in ascending order and apart from each other. -/
abbrev Ranges := List (Nat × Nat)

namespace Ranges

/-- Some range covers the code point. -/
def covers (ranges : Ranges) (code : Nat) : Bool :=
  ranges.any fun range => range.1 ≤ code && code ≤ range.2

/-- The number of code points that the ranges cover. -/
def size : Ranges → Nat
  | [] => 0
  | range :: ranges => (range.2 + 1 - range.1) + size ranges

theorem covers_iff {ranges : Ranges} {code : Nat} :
    ranges.covers code = true ↔ ∃ range ∈ ranges, range.1 ≤ code ∧ code ≤ range.2 := by
  simp [covers]

end Ranges

end Retrace.Text
