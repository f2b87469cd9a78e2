import Retrace.Proofs.Frame.Anonymous.Basic

/-!
# Files that begin with a scheme

The second form takes a call site without a method if the file begins with one of its schemes and a
colon. A file that is itself such a scheme needs a path, for which the form takes the line.
-/

namespace Retrace

namespace Grammar

open Pattern

/-- The schemes of the second form. -/
def schemeWords : List String :=
  ["blob", "file", "ms-appx", "http", "https", "webpack", "rsc"]

/-- A text is, without regard to case, a scheme of the second form. -/
def IsScheme (text : List Char) : Prop :=
  ∃ wanted ∈ schemeWords, text.map Text.foldCase = wanted.toList

instance (text : List Char) : Decidable (IsScheme text) :=
  inferInstanceAs (Decidable (∃ wanted ∈ schemeWords, text.map Text.foldCase = wanted.toList))

/-- A text begins, without regard to case, with a scheme of the second form and a colon. -/
def BeginsScheme (text : List Char) : Prop :=
  ∃ wanted ∈ schemeWords, wanted.toList ++ [':'] <+: text.map Text.foldCase

instance (text : List Char) : Decidable (BeginsScheme text) :=
  inferInstanceAs
    (Decidable (∃ wanted ∈ schemeWords, wanted.toList ++ [':'] <+: text.map Text.foldCase))

variable {file line column : List Char} {captures : Captures} {offset : Nat}

/-- The schemes of the second form are what it spells as one. -/
theorem spells_winjsScheme {scheme rest : List Char} :
    winjsScheme.Spells offset scheme rest ↔ IsScheme scheme := by
  constructor
  · intro spells
    have isWord (wanted : String) (isOne : wanted ∈ schemeWords)
        (spells : (word wanted).Spells offset scheme rest) : IsScheme scheme :=
      ⟨wanted, isOne, spells_word.1 spells⟩
    rcases spells_anyOf.1 spells with ⟨pattern, isOne, spells⟩ | blob
    · simp only [List.mem_cons, List.not_mem_nil, or_false] at isOne
      rcases isOne with rfl | rfl | rfl | rfl | rfl
      · exact isWord _ (by decide) spells
      · exact isWord _ (by decide) spells
      · obtain ⟨front, back, rfl, http, secure⟩ := spells_all_cons.1 spells
        have isHttp : front.map Text.foldCase = "http".toList := spells_word.1 http
        rcases spells_optional.1 secure with secure | rfl
        · have isSecure : back.map Text.foldCase = "s".toList := spells_word.1 secure
          exact ⟨"https", by decide, by rw [List.map_append, isHttp, isSecure]; decide⟩
        · exact ⟨"http", by decide, by rw [List.append_nil, isHttp]⟩
      · exact isWord _ (by decide) spells
      · exact isWord _ (by decide) spells
    · exact isWord _ (by decide) blob
  · rintro ⟨wanted, isOne, folded⟩
    have one (pattern : Pattern)
        (isOne : pattern ∈ [word "file", word "ms-appx", httpScheme, word "webpack", word "rsc"])
        (spells : pattern.Spells offset scheme rest) : winjsScheme.Spells offset scheme rest :=
      spells_anyOf.2 (.inl ⟨pattern, isOne, spells⟩)
    simp only [schemeWords, List.mem_cons, List.not_mem_nil, or_false] at isOne
    rcases isOne with rfl | rfl | rfl | rfl | rfl | rfl | rfl
    · exact spells_anyOf.2 (.inr (spells_word.2 folded))
    · exact one _ (by simp) (spells_word.2 folded)
    · exact one _ (by simp) (spells_word.2 folded)
    · refine one httpScheme (by simp) (spells_all_cons.2 ⟨scheme, [], by simp, ?_, ?_⟩)
      · exact spells_word.2 folded
      · exact spells_optional.2 (.inr rfl)
    · have parted : scheme.map Text.foldCase = "http".toList ++ "s".toList := folded
      obtain ⟨front, back, rfl, isHttp, isSecure⟩ := List.map_eq_append_iff.1 parted
      refine one httpScheme (by simp) (spells_all_cons.2 ⟨front, back, rfl, ?_, ?_⟩)
      · exact spells_word.2 isHttp
      · exact spells_optional.2 (.inl (spells_word.2 isSecure))
    · exact one _ (by simp) (spells_word.2 folded)
    · exact one _ (by simp) (spells_word.2 folded)

/-- A scheme has no colon. -/
theorem IsScheme.noColon {scheme : List Char} (isScheme : IsScheme scheme) : ':' ∉ scheme := by
  obtain ⟨wanted, isOne, folded⟩ := isScheme
  have noColon : ∀ wanted ∈ schemeWords, ':' ∉ wanted.toList := by decide
  exact Text.not_mem_of_map_foldCase folded (by decide) (noColon wanted isOne)

/-- A text begins with a scheme if its part in front of a colon is one. -/
theorem beginsScheme_iff {text : List Char} :
    BeginsScheme text ↔ ∃ scheme path, text = scheme ++ ':' :: path ∧ IsScheme scheme := by
  constructor
  · rintro ⟨wanted, isOne, rest, folded⟩
    rw [List.append_assoc] at folded
    obtain ⟨scheme, behind, rfl, isScheme, isRest⟩ := List.map_eq_append_iff.1 folded.symm
    obtain ⟨colon, path, rfl, isColon, -⟩ := List.map_eq_cons_iff.1 isRest
    obtain rfl := Text.eq_of_foldCase isColon (by decide)
    exact ⟨scheme, path, rfl, wanted, isOne, isScheme⟩
  · rintro ⟨scheme, path, rfl, wanted, isOne, isScheme⟩
    have colon : Text.foldCase ':' = ':' := by decide
    exact ⟨wanted, isOne, path.map Text.foldCase, by
      rw [List.map_append, isScheme, List.map_cons, colon, List.append_assoc, List.singleton_append]⟩

/-- The second form from a file on. -/
def winjsEnd : Pattern :=
  seq (capture .file (seq (seq winjsScheme (char ':')) anything)) (seq (numberPart .line) columnEnd)

/-- The second form goes on with the file of a call site without a method. -/
theorem matchFront?_winjs_of_anonymous (isAnonymous : IsAnonymous file line column) :
    winjsPattern.matchFront? (anonymousText file line column) =
      winjsEnd.run ⟨7, file ++ placeUpTo [] line column, Captures.none⟩ found :=
  isAnonymous.run_reference

/-- Finding a scheme captures nothing by itself. -/
theorem isSilent_winjsScheme : (seq winjsScheme (char ':')).IsSilent := by
  intro part
  simp [winjsScheme, anyOf, httpScheme, Pattern.optional, char, setsPart]

/-- What the second form spells in front of a path is a scheme and a colon. -/
theorem exists_of_spells_scheme {opening rest : List Char}
    (spells : (seq winjsScheme (char ':')).Spells offset opening rest) :
    ∃ scheme, opening = scheme ++ [':'] ∧ IsScheme scheme := by
  obtain ⟨scheme, _, rfl, spells, colon⟩ := spells_seq.1 spells
  obtain rfl := spells_char.1 colon
  exact ⟨scheme, rfl, spells_winjsScheme.1 spells⟩

/-- A scheme and a colon are spelled in front of every path. -/
theorem spells_scheme {scheme rest : List Char} (isScheme : IsScheme scheme) :
    (seq winjsScheme (char ':')).Spells offset (scheme ++ [':']) rest :=
  .seq (spells_winjsScheme.2 isScheme) (spells_char.2 rfl)

/-- The second form captures a file that begins with one of its schemes. -/
theorem run_winjsEnd_of_beginsScheme (isAnonymous : IsAnonymous file line column)
    (begins : BeginsScheme file) :
    winjsEnd.run ⟨offset, file ++ placeUpTo [] line column, captures⟩ found =
      some (captureFile captures offset file line column) := by
  obtain ⟨scheme, path, rfl, isScheme⟩ := beginsScheme_iff.1 begins
  refine run_file isSilent_winjsScheme .needed .left isAnonymous.inLine isAnonymous.line
    isAnonymous.column ⟨scheme ++ [':'], path ++ placeUpTo [] line column, by simp,
      spells_scheme isScheme⟩ ?_
  intro opening rest cut spells
  obtain ⟨other, rfl, isOther⟩ := exists_of_spells_scheme spells
  rw [List.append_assoc, List.append_assoc] at cut
  obtain rfl := Text.eq_of_cut_at_first isScheme.noColon isOther.noColon cut
  exact ⟨path, by simp⟩

/-- What is captured of a file that is a scheme, together with the number behind it. -/
def captureScheme (captures : Captures) (offset : Nat) (file line column : List Char) : Captures :=
  (captures.set .file ⟨offset, offset + file.length + 1 + line.length⟩).set .line
    ⟨offset + file.length + 1 + line.length + 1,
      offset + file.length + 1 + line.length + 1 + column.length⟩

/-- A file that is itself a scheme needs a path, for which the second form takes the line; the column
is then the line. -/
theorem run_winjsEnd_of_isScheme (isAnonymous : IsAnonymous file line column)
    (isScheme : IsScheme file) :
    winjsEnd.run ⟨offset, file ++ placeUpTo [] line column, captures⟩ found =
      some (captureScheme captures offset file line column) := by
  have unfolded : winjsEnd.run ⟨offset, file ++ placeUpTo [] line column, captures⟩ found =
      (seq winjsScheme (char ':')).run ⟨offset, file ++ placeUpTo [] line column, captures⟩
        fun middle => runSparing isInLine middle.captures
          (fun after => (seq (numberPart .line) columnEnd).run (after.capture .file offset) found)
          middle.offset middle.rest := rfl
  have passed : offset + (file ++ [':']).length + line.length =
      offset + file.length + 1 + line.length := by
    rw [List.length_append, List.length_singleton]
    omega
  have number : (seq (numberPart .line) columnEnd).run
      ⟨offset + (file ++ [':']).length + line.length, ':' :: (column ++ []),
        captures.set .file ⟨offset, offset + (file ++ [':']).length + line.length⟩⟩ found =
      some (captureScheme captures offset file line column) := by
    have last : ∀ char ∈ ([] : List Char).head?, Text.isDigit char = false := by simp
    rw [passed, run_seq]
    refine run_numberPart isAnonymous.column last ?_
    rfl
  have extended : runSparing isInLine captures
      (fun after => (seq (numberPart .line) columnEnd).run (after.capture .file offset) found)
      (offset + (file ++ [':']).length) (line ++ ':' :: (column ++ [])) =
        some (captureScheme captures offset file line column) := by
    refine runSparing_eq_some ?_ ?_ ?_
    · intro char isIn
      refine decide_eq_true fun feed => ?_
      subst feed
      exact isAnonymous.line.not_mem (by decide) isIn
    · -- a shorter path leaves a digit where the line has its colon
      rintro front late rfl nonempty
      refine run_eq_none fun taken rest cut spells => ?_
      obtain ⟨_, _, rfl, number, -⟩ := spells_seq.1 spells
      obtain ⟨digits, rfl, -⟩ := spells_numberPart.1 number
      obtain ⟨digit, late, rfl⟩ := List.exists_cons_of_ne_nil nonempty
      obtain ⟨rfl, -⟩ := List.cons_eq_cons.1 cut
      have noColon : ':' ∉ front ++ ':' :: late := isAnonymous.line.not_mem (by decide)
      simp at noColon
    · exact number
  rw [unfolded]
  apply run_eq_some_of_isSilent isSilent_winjsScheme
  · intro opening rest cut spells
    obtain ⟨scheme, rfl, isOther⟩ := exists_of_spells_scheme spells
    rw [List.append_assoc] at cut
    obtain rfl := Text.eq_of_cut_at_first isScheme.noColon isOther.noColon cut
    obtain ⟨-, rfl⟩ := List.cons_eq_cons.1 (List.append_cancel_left cut)
    exact .inr extended
  · exact ⟨file ++ [':'], line ++ ':' :: (column ++ []), by simp [placeUpTo], spells_scheme isScheme,
      extended⟩

/-- The second form reads no call site without a method whose file has none of its schemes. -/
theorem run_winjsEnd_eq_none (noScheme : ¬ IsScheme file) (notBegins : ¬ BeginsScheme file) :
    winjsEnd.run ⟨offset, file ++ placeUpTo [] line column, captures⟩ found = none := by
  refine run_eq_none fun taken rest cut spells => ?_
  obtain ⟨_, others, rfl, captured, -⟩ := spells_seq.1 spells
  obtain ⟨opening, path, rfl, start, -⟩ := spells_seq.1 (spells_capture.1 captured)
  obtain ⟨scheme, rfl, isScheme⟩ := exists_of_spells_scheme start
  have joined : scheme ++ ':' :: (path ++ others ++ rest) = file ++ placeUpTo [] line column := by
    rw [cut]
    simp
  by_cases colon : ':' ∈ file
  · obtain ⟨front, back, rfl, noColon⟩ := List.eq_append_cons_of_mem colon
    have split : scheme ++ ':' :: (path ++ others ++ rest) =
        front ++ ':' :: (back ++ placeUpTo [] line column) := by
      rw [joined, List.append_assoc, List.cons_append]
    obtain rfl := Text.eq_of_cut_at_first isScheme.noColon noColon split
    exact notBegins (beginsScheme_iff.2 ⟨scheme, back, rfl, isScheme⟩)
  · obtain rfl := Text.eq_of_cut_at_first isScheme.noColon colon joined
    exact noScheme isScheme

/-- A scheme that is the whole file is captured with the line behind it. -/
theorem ofCaptures_captureScheme (file line column : List Char) :
    WrittenFrame.ofCaptures (anonymousText file line column)
      (captureScheme Captures.none 7 file line column) =
        ⟨[], file ++ ':' :: line, some column, none⟩ := by
  have isFile : Span.of ⟨7, 7 + file.length + 1 + line.length⟩ (anonymousText file line column) =
      file ++ ':' :: line := by
    have cut : anonymousText file line column =
        Frame.opening.toList ++ ((file ++ ':' :: line) ++ ':' :: column) := by
      simp [anonymousText, placeUpTo]
    have length : 7 + file.length + 1 + line.length =
        Frame.opening.toList.length + (file ++ ':' :: line).length := by
      rw [length_opening, List.length_append, List.length_cons]
      omega
    exact Span.of_eq cut length_opening.symm length
  have isLine : Span.of ⟨7 + file.length + 1 + line.length + 1,
      7 + file.length + 1 + line.length + 1 + column.length⟩ (anonymousText file line column) =
      column := by
    have cut : anonymousText file line column =
        (Frame.opening.toList ++ (file ++ ':' :: (line ++ [':']))) ++ (column ++ []) := by
      simp [anonymousText, placeUpTo]
    have length : (Frame.opening.toList ++ (file ++ ':' :: (line ++ [':']))).length =
        7 + file.length + 1 + line.length + 1 := by
      rw [List.length_append, length_opening, List.length_append, List.length_cons,
        List.length_append, List.length_singleton]
      omega
    exact Span.of_eq cut length.symm (by rw [length])
  simp [WrittenFrame.ofCaptures, Captures.text?, captureScheme, Captures.set, Captures.none, isFile,
    isLine]

end Grammar

end Retrace
