import Mathlib.Data.List.Infix
import Retrace.Text.Lines

/-!
# Lines are parts of a text

A line is a contiguous part of its text, and nothing in it ends a line. Texts that are joined by a
line feed keep their lines, although the line feed may add an empty one or end one together with the
carriage return in front of it.
-/

namespace Retrace.Text

variable {char : Char} {line text : List Char}

/-- A line has no character that ends one. -/
def Unbroken (line : List Char) : Prop :=
  ∀ char ∈ line, isLineEnd char = false

/-- What the lines of a text are to it. The first one stands at its front. -/
structure AreLines (text : List Char) (lines : List (List Char)) : Prop where
  first : ∀ line ∈ lines.head?, line <+: text
  inside : ∀ line ∈ lines, line <:+: text
  unbroken : ∀ line ∈ lines, Unbroken line

namespace AreLines

variable {rest : List Char} {lines : List (List Char)}

/-- A line that ends in front of a text is empty. -/
theorem cons_nil (before : List Char) (are : AreLines rest lines) :
    AreLines (before ++ rest) ([] :: lines) where
  first := by
    rintro _ ⟨⟩
    exact List.nil_prefix
  inside := List.forall_mem_cons.2 ⟨List.nil_infix, fun line isLine =>
    (are.inside line isLine).trans (List.suffix_append before rest).isInfix⟩
  unbroken := List.forall_mem_cons.2 ⟨by simp [Unbroken], are.unbroken⟩

/-- A character that ends no line belongs to the first one. -/
theorem consToFirst (noEnd : isLineEnd char = false) (are : AreLines rest lines) :
    AreLines (char :: rest) (consToFirst char lines) := by
  have grown {line : List Char} (start : line <+: rest) (unbroken : Unbroken line) :
      char :: line <+: char :: rest ∧ Unbroken (char :: line) :=
    ⟨List.cons_prefix_cons.2 ⟨rfl, start⟩, List.forall_mem_cons.2 ⟨noEnd, unbroken⟩⟩
  cases lines with
  | nil =>
    obtain ⟨start, unbroken⟩ := grown List.nil_prefix (by simp [Unbroken])
    refine ⟨?_, List.forall_mem_singleton.2 start.isInfix, List.forall_mem_singleton.2 unbroken⟩
    rintro _ ⟨⟩
    exact start
  | cons first others =>
    obtain ⟨unbroken, behind⟩ := List.forall_mem_cons.1 are.unbroken
    obtain ⟨start, unbroken⟩ := grown (are.first first rfl) unbroken
    refine ⟨?_, List.forall_mem_cons.2 ⟨start.isInfix, fun line isLine => ?_⟩,
      List.forall_mem_cons.2 ⟨unbroken, behind⟩⟩
    · rintro _ ⟨⟩
      exact start
    · exact List.infix_cons (are.inside line (List.mem_cons_of_mem _ isLine))

end AreLines

theorem areLines (text : List Char) : AreLines text (lines text) := by
  induction text using lines.induct with
  | case1 => exact ⟨by rintro _ ⟨⟩, by rintro _ ⟨⟩, by rintro _ ⟨⟩⟩
  | case2 rest inductionHypothesis =>
    rw [lines]
    exact inductionHypothesis.cons_nil ['\r', '\n']
  | case3 char rest noPair ends inductionHypothesis =>
    rw [lines.eq_3 _ _ noPair, if_pos ends]
    exact inductionHypothesis.cons_nil [char]
  | case4 char rest noPair noEnd inductionHypothesis =>
    rw [lines.eq_3 _ _ noPair, if_neg noEnd]
    exact inductionHypothesis.consToFirst (Bool.eq_false_iff.2 noEnd)

/-- A text is cut behind its first line. -/
theorem lines_append (unbroken : Unbroken line) (rest : List Char) :
    lines (line ++ '\n' :: rest) = line :: lines rest := by
  induction line with
  | nil => rfl
  | cons char line inductionHypothesis =>
    obtain ⟨noEnd, behind⟩ := List.forall_mem_cons.1 unbroken
    have noPair : ∀ rest' : List Char, char = '\r' → line ++ '\n' :: rest = '\n' :: rest' → False := by
      rintro _ rfl -
      cases noEnd
    rw [List.cons_append, lines.eq_3 _ _ noPair, if_neg (Bool.eq_false_iff.1 noEnd),
      inductionHypothesis behind]
    rfl

/-- A line has no line feed. -/
theorem not_mem_of_mem_lines (isLine : line ∈ lines text) : '\n' ∉ line := by
  intro isIn
  have noEnd := (areLines text).unbroken line isLine '\n' isIn
  revert noEnd
  decide

end Retrace.Text
