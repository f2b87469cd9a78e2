/-!
# Plain text

A control sequence tells a terminal how to show what follows. It is an escape character and an
opening bracket, then digits, semicolons and question marks, and at last a letter. Plain text is
text without them: what is printed to something other than a terminal carries none. An escape
character that begins no such sequence is left alone.
-/

namespace Retrace.Text

/-- The character may stand between the opening bracket of a control sequence and its letter. -/
def isParameter (char : Char) : Bool :=
  char.isDigit || char = ';' || char = '?'

/-- What stands behind the control sequence that a text begins with. -/
def afterSequence? : List Char → Option (List Char)
  | '\x1b' :: '[' :: parameters =>
    match parameters.dropWhile isParameter with
    | [] => none
    | char :: rest => if char.isAlpha then some rest else none
  | _ => none

theorem length_lt_of_afterSequence? {text rest : List Char}
    (found : afterSequence? text = some rest) : rest.length < text.length := by
  unfold afterSequence? at found
  split at found
  · next parameters =>
    have shorter := (List.dropWhile_suffix isParameter (l := parameters)).length_le
    split at found
    · simp at found
    · next letter behind atLetter =>
      split at found
      · simp only [Option.some.injEq] at found
        subst found
        simp only [atLetter, List.length_cons] at shorter ⊢
        omega
      · simp at found
  · simp at found

/-- A text without its control sequences. One that only arises where another was taken out stays,
since the text is read once, from front to back. -/
def plain : List Char → List Char
  | [] => []
  | char :: rest =>
    match _ : afterSequence? (char :: rest) with
    | some behind => plain behind
    | none => char :: plain rest
termination_by text => text.length
decreasing_by
  · exact length_lt_of_afterSequence? (by assumption)
  · simp

example : plain "\x1b[38;5;196mred\x1b[0m".toList = "red".toList := by decide +kernel

example : plain "\x1b\x1b[0m[1 m".toList = "\x1b[1 m".toList := by decide +kernel

end Retrace.Text
