import Mathlib.Data.List.Infix

/-!
# Cuts of a text

A text that is cut in two ways has one cut inside the other. The lemmas here say what this means
where a character marks one of the cuts.
-/

namespace Retrace.Text

/-- A beginning of a text ends before two given characters, or between them, or has both. -/
theorem prefix_cases {start rest front more : List Char} {first second : Char}
    (cut : start ++ rest = front ++ first :: second :: more) :
    start <+: front ∨ start = front ++ [first] ∨ front ++ [first, second] <+: start := by
  rcases List.append_eq_append_iff.1 cut with ⟨left, rfl, -⟩ | ⟨further, rfl, others⟩
  · exact .inl (List.prefix_append _ _)
  · rcases further with _ | ⟨one, _ | ⟨two, further⟩⟩
    · exact .inl (by simp)
    · obtain ⟨rfl, -⟩ := List.cons_eq_cons.1 others
      exact .inr (.inl rfl)
    · obtain ⟨isFirst, others⟩ := List.cons_eq_cons.1 others
      obtain ⟨isSecond, -⟩ := List.cons_eq_cons.1 others
      subst isFirst isSecond
      exact .inr (.inr ⟨further, by simp⟩)

/-- The last character of a text is in every end of it that is not empty. -/
theorem mem_of_append_singleton {front left last : List Char} {char : Char}
    (cut : front ++ [char] = left ++ last) (nonempty : last ≠ []) : char ∈ last := by
  have ends : (left ++ last).getLast? = some char := by rw [← cut, List.getLast?_concat]
  rw [List.getLast?_append_of_ne_nil left nonempty] at ends
  exact List.mem_of_getLast? ends

/-- A text that has a character has it for the last time somewhere. -/
theorem exists_last_of_mem {char : Char} {text : List Char} (isIn : char ∈ text) :
    ∃ front back, text = front ++ char :: back ∧ char ∉ back := by
  obtain ⟨back, front, cut, absent⟩ := List.eq_append_cons_of_mem (List.mem_reverse.2 isIn)
  refine ⟨front.reverse, back.reverse, ?_, by simpa using absent⟩
  rw [← List.reverse_reverse text, cut]
  simp

/-- Where a mark stands between two parts, of which the first has no late character and the second
no early one, the mark stands between every early character and every late one behind it. -/
theorem mem_between {early late mark : Char} {left right front between back : List Char}
    (cut : (front ++ [early]) ++ (between ++ late :: back) = left ++ mark :: right)
    (noLate : late ∉ left) (noEarly : early ∉ mark :: right) (notLate : mark ≠ late) :
    mark ∈ between := by
  rcases List.append_eq_append_iff.1 cut with ⟨inside, isLeft, joined⟩ | ⟨further, isFront, joined⟩
  · -- The first part goes on behind the early character, but not up to the late one.
    rcases List.append_eq_append_iff.1 joined with ⟨more, rfl, others⟩ | ⟨more, rfl, others⟩
    · cases more with
      | nil => exact absurd (List.cons_eq_cons.1 others).1.symm notLate
      | cons one more =>
        obtain ⟨rfl, -⟩ := List.cons_eq_cons.1 others
        rw [isLeft] at noLate
        simp at noLate
    · cases more with
      | nil => exact absurd (List.cons_eq_cons.1 others).1 notLate
      | cons one more =>
        obtain ⟨rfl, -⟩ := List.cons_eq_cons.1 others
        simp
  · cases further with
    | nil =>
      rw [List.nil_append] at joined
      cases between with
      | nil => exact absurd (List.cons_eq_cons.1 joined).1 notLate
      | cons one between =>
        obtain ⟨rfl, -⟩ := List.cons_eq_cons.1 joined
        exact List.mem_cons_self
    | cons one further =>
      have isLast := mem_of_append_singleton isFront (List.cons_ne_nil one further)
      rw [joined] at noEarly
      exact absurd (List.mem_append_left _ isLast) noEarly

/-- A text without a separator begins a separated text exactly if it begins its first part. -/
theorem prefix_of_prefix_separated {separator : Char} {word front back : List Char}
    (absent : separator ∉ word) (begins : word <+: front ++ separator :: back) : word <+: front := by
  have first : front ++ [separator] <+: front ++ separator :: back := ⟨back, by simp⟩
  rcases List.prefix_or_prefix_of_prefix begins first with inside | further
  · rcases List.prefix_concat_iff.1 inside with rfl | inside
    · simp at absent
    · exact inside
  · exact absurd (further.subset (by simp)) absent

/-- A text is cut at its first separator in one way only. -/
theorem eq_of_cut_at_first {separator : Char} {left right front back : List Char}
    (noLeft : separator ∉ left) (noFront : separator ∉ front)
    (cut : left ++ separator :: right = front ++ separator :: back) : left = front := by
  have inFront := prefix_of_prefix_separated noLeft ⟨separator :: right, cut⟩
  have inLeft := prefix_of_prefix_separated noFront ⟨separator :: back, cut.symm⟩
  exact inFront.eq_of_length_le inLeft.length_le

/-- A text without a separator stands in a separated text exactly if it stands in one of the
parts. -/
theorem infix_separated_iff {separator : Char} {word front back : List Char}
    (absent : separator ∉ word) :
    word <:+: front ++ separator :: back ↔ word <:+: front ∨ word <:+: back := by
  constructor
  · intro inside
    induction front with
    | nil =>
      rcases List.infix_cons_iff.1 inside with begins | behind
      · have begins : word <+: [] ++ separator :: back := begins
        exact .inl (prefix_of_prefix_separated absent begins).isInfix
      · exact .inr behind
    | cons char front inductionHypothesis =>
      rcases List.infix_cons_iff.1 inside with begins | behind
      · have begins : word <+: (char :: front) ++ separator :: back := begins
        exact .inl (prefix_of_prefix_separated absent begins).isInfix
      · exact (inductionHypothesis behind).imp List.infix_cons id
  · rintro (inside | inside)
    · exact inside.trans (List.prefix_append _ _).isInfix
    · exact inside.trans ((List.suffix_cons _ _).trans (List.suffix_append _ _)).isInfix

end Retrace.Text
