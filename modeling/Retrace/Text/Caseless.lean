/-!
# Matching letters without regard to case

Patterns are written in lower case. A character of the input stands for the lower-case letter that
`foldCase` gives; besides the capitals, four characters beyond ASCII stand for an ASCII letter. All
other characters stand for themselves, so the folding decides matches against ASCII text only.
-/

namespace Retrace.Text

/-- The lower-case ASCII letter that the character stands for, or the character itself. -/
def foldCase (char : Char) : Char :=
  match char with
  | '\u0130' => 'i'
  | '\u0131' => 'i'
  | '\u017f' => 's'
  | '\u212a' => 'k'
  | _ => char.toLower

/-- The character stands for one of the letters a to z. -/
def isLetter (char : Char) : Bool :=
  'a' ≤ foldCase char && foldCase char ≤ 'z'

example : foldCase 'K' = 'k' ∧ foldCase '\u212a' = 'k' ∧ foldCase ':' = ':' := by decide

end Retrace.Text
