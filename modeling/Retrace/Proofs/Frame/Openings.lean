import Retrace.Proofs.Frame.Places
import Retrace.Proofs.Text.Cuts

/-!
# How file references begin

Three of the forms know a file by its beginning: a scheme, a drive, a path. No such beginning reaches
over the colon in front of a line, except that of a scheme that is itself the whole file.
-/

namespace Retrace.Grammar

open Pattern

variable {offset : Nat} {opening rest : List Char}

/-- The beginnings of the first form that have no colon, but for the network share. -/
def placeStarts : List Pattern :=
  [word "file", httpScheme, word "blob", word "chrome-extension", word "native", word "eval",
   word "webpack", word "rsc", word "<anonymous>", char '/']

/-- A letter for a drive, and what separates it from a path. -/
def driveStart : Pattern :=
  Pattern.all [one Text.isLetter, char ':', char '\\']

/-- A beginning of the first form has no colon, or it is a drive. -/
theorem spells_chromeFileStart (spells : chromeFileStart.Spells offset opening rest) :
    ':' ∉ opening ∨ ∃ letter, Text.isLetter letter = true ∧ opening = [letter, ':', '\\'] := by
  have noColon {pattern : Pattern} (only : pattern.ConsumesOnly (· ≠ ':'))
      (spells : pattern.Spells offset opening rest) : ':' ∉ opening :=
    fun isIn => spells.all only ':' isIn rfl
  have colonless : ∀ pattern ∈ placeStarts, pattern.ConsumesOnly (· ≠ ':') := by
    simp (disch := decide) [placeStarts, httpScheme, consumesOnly_word]
  rcases spells_anyOf.1 spells with ⟨pattern, isOne, spells⟩ | share
  · have parted : pattern ∈ placeStarts ++ [driveStart] := isOne
    rcases List.mem_append.1 parted with isPlace | isDrive
    · exact .inl (noColon (colonless pattern isPlace) spells)
    · obtain rfl := List.mem_singleton.1 isDrive
      obtain ⟨_, _, rfl, drive, behind⟩ := spells_all_cons.1 spells
      obtain ⟨_, _, rfl, colon, slash⟩ := spells_all_cons.1 behind
      obtain ⟨letter, rfl, isLetter⟩ := spells_one.1 drive
      obtain rfl := spells_char.1 colon
      obtain rfl := spells_char.1 slash
      exact .inr ⟨letter, isLetter, rfl⟩
  · exact .inl (noColon (by simp) share)

/-- A beginning of the first form ends within the file. -/
theorem inside_of_spells_chromeFileStart {file line column : List Char} {digit : Char}
    (isDigit : Text.isDigit digit = true)
    (cut : opening ++ rest = file ++ placeText (digit :: line) column)
    (spells : chromeFileStart.Spells offset opening rest) : opening <+: file := by
  rcases Text.prefix_cases cut with inside | rfl | ⟨further, rfl⟩
  · exact inside
  · rcases spells_chromeFileStart spells with noColon | ⟨letter, -, isDrive⟩
    · simp at noColon
    · have last := congrArg List.getLast? isDrive
      rw [List.getLast?_concat] at last
      cases last
  · rcases spells_chromeFileStart spells with noColon | ⟨letter, isLetter, isDrive⟩
    · simp at noColon
    · rcases file with _ | ⟨first, _ | ⟨second, file⟩⟩
      · cases isDrive
        exact absurd isLetter (by decide)
      · cases isDrive
        exact absurd isDigit (by decide)
      · have length := congrArg List.length isDrive
        simp at length
        omega

/-- The schemes of the second form. -/
def winjsScheme : Pattern :=
  anyOf (word "blob") [word "file", word "ms-appx", httpScheme, word "webpack", word "rsc"]

/-- A scheme of the second form begins files of the first one, but for one scheme. -/
theorem chromeFileStart_of_winjsScheme (spells : winjsScheme.Spells offset opening rest) :
    opening.map Text.foldCase = "ms-appx".toList ∨ chromeFileStart.Spells offset opening rest := by
  have also (pattern : Pattern) (isPlace : pattern ∈ placeStarts)
      (spells : pattern.Spells offset opening rest) : chromeFileStart.Spells offset opening rest :=
    spells_anyOf.2 (.inl ⟨pattern, List.mem_append_left [driveStart] isPlace, spells⟩)
  rcases spells_anyOf.1 spells with ⟨pattern, isOne, spells⟩ | blob
  · simp only [List.mem_cons, List.not_mem_nil, or_false] at isOne
    rcases isOne with rfl | rfl | rfl | rfl | rfl
    · exact .inr (also _ (by simp [placeStarts]) spells)
    · exact .inl (spells_word.1 spells)
    · exact .inr (also _ (by simp [placeStarts]) spells)
    · exact .inr (also _ (by simp [placeStarts]) spells)
    · exact .inr (also _ (by simp [placeStarts]) spells)
  · exact .inr (also _ (by simp [placeStarts]) blob)

/-- A scheme and its colon end within the file, or the scheme is the whole file. -/
theorem inside_of_spells_winjsScheme {scheme file line column : List Char} {digit : Char}
    (cut : (scheme ++ [':']) ++ rest = file ++ placeText (digit :: line) column)
    (spells : winjsScheme.Spells offset scheme (':' :: rest)) :
    scheme ++ [':'] <+: file ∨ scheme = file := by
  have colonless : winjsScheme.ConsumesOnly (· ≠ ':') := by
    simp (disch := decide) [winjsScheme, httpScheme, consumesOnly_word]
  rcases Text.prefix_cases cut with inside | same | ⟨further, same⟩
  · exact .inl inside
  · exact .inr (List.append_cancel_right same)
  · have joined : scheme ++ [':'] = file ++ ':' :: digit :: further := by simpa using same.symm
    rcases List.append_eq_append_iff.1 joined with ⟨late, -, ends⟩ | ⟨late, rfl, ends⟩
    · have length := congrArg List.length ends
      simp at length
      omega
    · cases late with
      | nil =>
        have length := congrArg List.length ends
        simp at length
      | cons first late =>
        obtain ⟨rfl, -⟩ := List.cons_eq_cons.1 ends
        exact absurd rfl (spells.all colonless ':' (by simp))

/-- The words by which the third form knows a file. -/
def pageWords : List String :=
  ["file", "http", "blob", "chrome", "webpack", "rsc", "resource", "[native"]

/-- A beginning of the third form begins with one of its words. -/
theorem exists_of_spells_geckoFileStart (spells : geckoFileStart.Spells offset opening rest) :
    ∃ wanted ∈ pageWords, ∃ front back, opening = front ++ back ∧
      front.map Text.foldCase = wanted.toList := by
  have isWord (wanted : String) (isOne : wanted ∈ pageWords)
      (spells : (word wanted).Spells offset opening rest) :
      ∃ wanted ∈ pageWords, ∃ front back, opening = front ++ back ∧
        front.map Text.foldCase = wanted.toList :=
    ⟨wanted, isOne, opening, [], (List.append_nil _).symm, spells_word.1 spells⟩
  rcases spells_anyOf.1 spells with ⟨pattern, isOne, spells⟩ | native
  · simp only [List.mem_cons, List.not_mem_nil, or_false] at isOne
    rcases isOne with rfl | rfl | rfl | rfl | rfl | rfl | rfl
    · exact isWord _ (by decide) spells
    · obtain ⟨front, back, rfl, http, -⟩ := spells_all_cons.1 spells
      exact ⟨"http", by decide, front, back, rfl, spells_word.1 http⟩
    · exact isWord _ (by decide) spells
    · exact isWord _ (by decide) spells
    · exact isWord _ (by decide) spells
    · exact isWord _ (by decide) spells
    · exact isWord _ (by decide) spells
  · exact isWord _ (by decide) native

/-- Each of its words is a beginning of the third form. -/
theorem spells_geckoFileStart {wanted : String} (isOne : wanted ∈ pageWords)
    (folded : opening.map Text.foldCase = wanted.toList) :
    geckoFileStart.Spells offset opening rest := by
  have one (pattern : Pattern)
      (isOne : pattern ∈ [word "file", httpScheme, word "blob", word "chrome", word "webpack",
        word "rsc", word "resource"])
      (spells : pattern.Spells offset opening rest) : geckoFileStart.Spells offset opening rest :=
    spells_anyOf.2 (.inl ⟨pattern, isOne, spells⟩)
  simp only [pageWords, List.mem_cons, List.not_mem_nil, or_false] at isOne
  rcases isOne with rfl | rfl | rfl | rfl | rfl | rfl | rfl | rfl
  · exact one _ (by simp) (spells_word.2 folded)
  · refine one httpScheme (by simp) (spells_all_cons.2 ⟨opening, [], by simp, ?_, ?_⟩)
    · exact spells_word.2 folded
    · exact spells_optional.2 (.inr rfl)
  · exact one _ (by simp) (spells_word.2 folded)
  · exact one _ (by simp) (spells_word.2 folded)
  · exact one _ (by simp) (spells_word.2 folded)
  · exact one _ (by simp) (spells_word.2 folded)
  · exact one _ (by simp) (spells_word.2 folded)
  · exact spells_anyOf.2 (.inr (spells_word.2 folded))

/-- No beginning of the third form stands in front of a text whose first letter is another one. -/
theorem not_spells_geckoFileStart {first : Char} {text : List Char}
    (other : ∀ wanted ∈ pageWords, wanted.toList.head? ≠ some (Text.foldCase first))
    (cut : opening ++ rest = first :: text) : ¬ geckoFileStart.Spells offset opening rest := by
  intro spells
  obtain ⟨wanted, isOne, front, back, rfl, folded⟩ := exists_of_spells_geckoFileStart spells
  cases front with
  | nil =>
    have nonempty : ∀ wanted ∈ pageWords, wanted.toList ≠ [] := by decide
    exact nonempty wanted isOne folded.symm
  | cons letter front =>
    obtain ⟨rfl, -⟩ := List.cons_eq_cons.1 cut
    apply other wanted isOne
    rw [← folded]
    rfl

end Retrace.Grammar
