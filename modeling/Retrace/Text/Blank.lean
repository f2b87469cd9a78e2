import Retrace.Text.Ranges

/-!
# Blank characters

White space is the Unicode property `White_Space` together with the four information separators
U+001C to U+001F.
-/

namespace Retrace.Text

/-- The ranges of white space. -/
def blankRanges : Ranges :=
  [(0x09, 0x0D), (0x1C, 0x20), (0x85, 0x85), (0xA0, 0xA0), (0x1680, 0x1680), (0x2000, 0x200A),
   (0x2028, 0x2029), (0x202F, 0x202F), (0x205F, 0x205F), (0x3000, 0x3000)]

/-- The character is white space. -/
def isBlank (char : Char) : Bool :=
  blankRanges.covers char.toNat

example : blankRanges.size = 29 := by decide

end Retrace.Text
