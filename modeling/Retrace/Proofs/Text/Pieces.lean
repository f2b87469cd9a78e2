import Retrace.Text.Lines

/-!
# Joined texts are cut again

Texts that do not have the separator themselves are the pieces of what they are joined to. No texts
at all are joined to the empty text, which has one empty piece.
-/

namespace Retrace.Text

/-- A text without separators is a single piece. -/
theorem pieces_of_not_mem {separator : Char} {text : List Char} (clean : separator ∉ text) :
    pieces separator text = [text] := by
  induction text with
  | nil => rfl
  | cons char text inductionHypothesis =>
    obtain ⟨different, behind⟩ := not_or.1 (mt List.mem_cons.2 clean)
    rw [pieces, if_neg (Ne.symm different), inductionHypothesis behind]
    rfl

/-- A text is cut at its first separator. -/
theorem pieces_append {separator : Char} {text : List Char} (clean : separator ∉ text)
    (rest : List Char) :
    pieces separator (text ++ separator :: rest) = text :: pieces separator rest := by
  induction text with
  | nil => rw [List.nil_append, pieces, if_pos rfl]
  | cons char text inductionHypothesis =>
    obtain ⟨different, behind⟩ := not_or.1 (mt List.mem_cons.2 clean)
    rw [List.cons_append, pieces, if_neg (Ne.symm different), inductionHypothesis behind]
    rfl

/-- The pieces of joined texts are the texts. -/
theorem pieces_intercalate {separator : Char} {texts : List (List Char)} (some : texts ≠ [])
    (clean : ∀ text ∈ texts, separator ∉ text) :
    pieces separator (List.intercalate [separator] texts) = texts := by
  induction texts with
  | nil => exact absurd rfl some
  | cons text texts inductionHypothesis =>
    have first := clean text List.mem_cons_self
    cases texts with
    | nil => rw [List.intercalate_singleton, pieces_of_not_mem first]
    | cons next texts =>
      have behind := inductionHypothesis (List.cons_ne_nil _ _)
        fun text isIn => clean text (List.mem_cons_of_mem _ isIn)
      rw [List.intercalate_cons_cons, List.append_assoc, List.singleton_append,
        pieces_append first, behind]

/-- The characters of joined texts are the separator and those of the texts. -/
theorem mem_intercalate {separator char : Char} {texts : List (List Char)}
    (isIn : char ∈ List.intercalate [separator] texts) :
    char = separator ∨ ∃ text ∈ texts, char ∈ text := by
  induction texts with
  | nil => cases isIn
  | cons text texts inductionHypothesis =>
    cases texts with
    | nil =>
      rw [List.intercalate_singleton] at isIn
      exact .inr ⟨text, List.mem_cons_self, isIn⟩
    | cons next texts =>
      rw [List.intercalate_cons_cons] at isIn
      rcases List.mem_append.1 isIn with isIn | isIn
      · rcases List.mem_append.1 isIn with isIn | isIn
        · exact .inr ⟨text, List.mem_cons_self, isIn⟩
        · exact .inl (List.mem_singleton.1 isIn)
      · obtain same | ⟨other, isOther, isIn⟩ := inductionHypothesis isIn
        · exact .inl same
        · exact .inr ⟨other, List.mem_cons_of_mem _ isOther, isIn⟩

end Retrace.Text
