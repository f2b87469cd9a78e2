/-!
# Lines of a text

A line ends at a line feed, a carriage return, the pair of both, a vertical tab, a form feed, one of
the separators U+001C to U+001E, or at U+0085, U+2028 and U+2029. A separator at the very end of the
text begins no further line, and the empty text has no lines.
-/

namespace Retrace.Text

/-- The character ends a line. -/
def isLineEnd (char : Char) : Bool :=
  match char.toNat with
  | 0x0A | 0x0B | 0x0C | 0x0D | 0x1C | 0x1D | 0x1E | 0x85 | 0x2028 | 0x2029 => true
  | _ => false

/-- Puts a character in front of the first line; a text without lines gets its first one. -/
def consToFirst (char : Char) : List (List Char) → List (List Char)
  | [] => [[char]]
  | line :: lines => (char :: line) :: lines

/-- The lines of a text, without what ends them. -/
def lines : List Char → List (List Char)
  | [] => []
  | '\r' :: '\n' :: rest => [] :: lines rest
  | char :: rest => if isLineEnd char then [] :: lines rest else consToFirst char (lines rest)

/-- Replaces every carriage return, alone or before a line feed, by a line feed. -/
def unifyLineEnds : List Char → List Char
  | [] => []
  | '\r' :: '\n' :: rest => '\n' :: unifyLineEnds rest
  | char :: rest => (if char = '\r' then '\n' else char) :: unifyLineEnds rest

/-- Cuts a text at every occurrence of a character; there is always at least one piece. -/
def pieces (separator : Char) : List Char → List (List Char)
  | [] => [[]]
  | char :: rest =>
    if char = separator then [] :: pieces separator rest
    else consToFirst char (pieces separator rest)

example : lines "a\r\nb\r\u2028c\n".toList = ["a".toList, "b".toList, [], "c".toList] := by decide

example : pieces ',' ",a,".toList = [[], ['a'], []] := by decide

end Retrace.Text
