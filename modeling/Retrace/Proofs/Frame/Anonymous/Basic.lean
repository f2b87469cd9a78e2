import Retrace.Proofs.Frame.AtSign

/-!
# Call sites without a method

A call site that names no method is the keyword and a file with its place, without parentheses. The
first form needs a parenthesis, so it reads none of these lines. The fourth form reads every one of
them as it is meant.
-/

namespace Retrace

namespace Grammar

open Pattern

/-- A file that can stand without parentheses. -/
structure IsBare (file : List Char) : Prop where
  unspaced : ∀ char ∈ file, Text.isBlank char = false
  noParenthesis : '(' ∉ file

instance (file : List Char) : Decidable (IsBare file) :=
  decidable_of_iff
    ((file.all fun char => decide (Text.isBlank char = false)) = true ∧ '(' ∉ file)
    ⟨fun ⟨unspaced, noParenthesis⟩ => ⟨Text.all_decide_iff.1 unspaced, noParenthesis⟩,
    fun isBare => ⟨Text.all_decide_iff.2 isBare.unspaced, isBare.noParenthesis⟩⟩

/-- A call site without a method. -/
def anonymousText (file line column : List Char) : List Char :=
  Frame.opening.toList ++ (file ++ placeUpTo [] line column)

/-- The parts of a call site without a method. -/
structure IsAnonymous (file line column : List Char) : Prop where
  file : IsBare file
  line : IsNumber line
  column : IsNumber column

variable {file line column : List Char} {captures : Captures} {offset : Nat}

theorem inLine_opening : ∀ char ∈ Frame.opening.toList, isInLine char = true :=
  Text.forall_mem_of_all (by decide)

namespace IsAnonymous

/-- Behind the keyword there is neither a parenthesis nor a space. -/
theorem not_mem_reference (isAnonymous : IsAnonymous file line column) {char : Char}
    (divides : char ∈ ['(', ' ']) : char ∉ file ++ placeUpTo [] line column := by
  have apart : ∀ char ∈ ['(', ' '], char ∈ [':', '(', ')', '@', '[', '\\', ' ', '\n'] ∧
      char ≠ ':' := Text.forall_mem_of_all (by decide)
  obtain ⟨isDivider, noColon⟩ := apart char divides
  have noFile : char ∉ file := by
    simp only [List.mem_cons, List.not_mem_nil, or_false] at divides
    rcases divides with rfl | rfl
    · exact isAnonymous.file.noParenthesis
    · exact Text.not_mem_of_unspaced isAnonymous.file.unspaced (by decide)
  have noLine := isAnonymous.line.not_mem isDivider
  have noColumn := isAnonymous.column.not_mem isDivider
  simp [placeUpTo, noFile, noLine, noColumn, noColon]

/-- Nowhere in the line there is a parenthesis. -/
theorem noParenthesis (isAnonymous : IsAnonymous file line column) :
    '(' ∉ anonymousText file line column := by
  rw [anonymousText, List.mem_append, not_or]
  exact ⟨by decide, isAnonymous.not_mem_reference (by decide)⟩

/-- A file has no line feed. -/
theorem inLine (isAnonymous : IsAnonymous file line column) :
    ∀ char ∈ file, isInLine char = true :=
  inLine_of_unspaced isAnonymous.file.unspaced

end IsAnonymous

section Keyword

variable {tail : Pattern} {next : Continuation Captures} {text : List Char}

/-- What ends in a space is left out where there is none. -/
theorem run_unspaced {body : Pattern} (noSpace : ' ' ∉ text) :
    (seq (optional (seq body (char ' '))) tail).run ⟨offset, text, captures⟩ next =
      tail.run ⟨offset, text, captures⟩ next := by
  rw [run_seq]
  apply run_optional_of_none
  apply run_eq_none
  rintro taken rest rfl spells
  obtain ⟨_, _, rfl, -, space⟩ := spells_seq.1 spells
  obtain rfl := spells_char.1 space
  simp at noSpace

/-- A parenthesis is left out where there is none. -/
theorem run_unopened (noParenthesis : '(' ∉ text) :
    (seq (optional (char '(')) tail).run ⟨offset, text, captures⟩ next =
      tail.run ⟨offset, text, captures⟩ next := by
  rw [run_seq]
  exact run_optional_of_none (run_char_of_not_mem noParenthesis)

/-- Behind the keyword of a call site without a method, a form with a keyword goes on with the
file. -/
theorem IsAnonymous.run_reference (isAnonymous : IsAnonymous file line column) {body : Pattern} :
    (seq atKeyword (seq (optional (seq body (char ' '))) (seq (optional (char '(')) tail))).matchFront?
        (anonymousText file line column) =
      tail.run ⟨7, file ++ placeUpTo [] line column, Captures.none⟩ found := by
  have keyword : (seq atKeyword (seq (optional (seq body (char ' ')))
      (seq (optional (char '(')) tail))).matchFront? (anonymousText file line column) =
      (seq (optional (seq body (char ' '))) (seq (optional (char '(')) tail)).run
        ⟨7, file ++ placeUpTo [] line column, Captures.none⟩ found := run_atKeyword
  rw [keyword, run_unspaced (isAnonymous.not_mem_reference (by decide)),
    run_unopened (isAnonymous.not_mem_reference (by decide))]

/-- The first form reads no call site without a parenthesis. -/
theorem matchFront?_chrome_of_anonymous (isAnonymous : IsAnonymous file line column) :
    chromePattern.matchFront? (anonymousText file line column) = none := by
  have noParenthesis := isAnonymous.noParenthesis
  apply matchFront?_eq_none
  intro taken rest cut spells
  obtain ⟨_, _, rfl, -, behind⟩ := spells_all_cons.1 spells
  obtain ⟨_, _, rfl, -, behind⟩ := spells_all_cons.1 behind
  obtain ⟨_, _, rfl, -, behind⟩ := spells_all_cons.1 behind
  obtain ⟨_, _, rfl, parenthesis, -⟩ := spells_all_cons.1 behind
  obtain rfl := spells_char.1 parenthesis
  rw [cut] at noParenthesis
  simp at noParenthesis

/-- The fourth form reads every call site without a method. -/
theorem matchFront?_node_of_anonymous (isAnonymous : IsAnonymous file line column) :
    nodePattern.matchFront? (anonymousText file line column) =
      some (captureFile Captures.none 7 file line column) := by
  have silent : Pattern.empty.IsSilent := fun _ => rfl
  refine isAnonymous.run_reference.trans ?_
  refine run_file silent .needed .left isAnonymous.inLine isAnonymous.line isAnonymous.column
    ⟨[], _, rfl, .empty⟩ ?_
  intro opening rest _ spells
  obtain rfl := spells_empty.1 spells
  exact List.nil_prefix

end Keyword

/-- A file behind the keyword is captured with its place as it is. -/
theorem ofCaptures_anonymousText (file line column : List Char) :
    WrittenFrame.ofCaptures (anonymousText file line column)
      (captureFile Captures.none 7 file line column) = ⟨[], file, some line, some column⟩ :=
  ofCaptures_captureFile rfl length_opening.symm

end Grammar

end Retrace
