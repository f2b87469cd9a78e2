/-!
# Finding a text inside a text
-/

namespace Retrace.Text

/-- The wanted text occurs somewhere in the other one. -/
def occurs (wanted : List Char) : List Char → Bool
  | [] => wanted.isEmpty
  | char :: rest => wanted.isPrefixOf (char :: rest) || occurs wanted rest

theorem occurs_iff {wanted text : List Char} : occurs wanted text = true ↔ wanted <:+: text := by
  induction text with
  | nil => simp [occurs, List.isEmpty_iff]
  | cons char rest inductionHypothesis =>
    simp [occurs, inductionHypothesis, List.infix_cons_iff]

/-- The part of a text after the last character of a kind; the whole text if there is none. -/
def afterLast (separates : Char → Bool) (text : List Char) : List Char :=
  (text.reverse.takeWhile (!separates ·)).reverse

example : afterLast (· = '/') "a/b/c".toList = ['c'] := by decide

end Retrace.Text
