import Retrace.Proofs.Frame.Blanks
import Retrace.Proofs.Frame.Provenance

/-!
# Bundles at the front of a line

The third form may find a file at the very front of a line that it knows by its last word. No place
begins within this word, so that such a line is cut between its file and its place in one way only,
and this is how the third form cuts it (`captured_of_bundle`). Behind an indent there still is such
a file at the front of the line, and the indent belongs to it.
-/

namespace Retrace

namespace Grammar

open Pattern

variable {offset : Nat} {file name place line indent rest : List Char} {captures start : Captures}

/-- The third form behind a file. -/
def placeEnd : Pattern :=
  seq (optional (numberPart .line)) openColumnEnd

theorem unanchored_placeEnd : placeEnd.Unanchored = true := rfl

/-- What the third form finds behind a file is numbers behind colons, and blanks. -/
theorem isPlace_of_begins (begins : placeEnd.Begins offset place) :
    ∃ numbers, IsPlace numbers [] place := by
  obtain ⟨_, last, rfl, spells⟩ := begins
  obtain ⟨_, _, rfl, line, spells⟩ := spells_seq.1 spells
  obtain ⟨_, blanks, rfl, column, ends⟩ := spells_all_cons.1 spells
  obtain ⟨lines, rfl, -, areLines⟩ := numbers_of_spells_optional line
  obtain ⟨columns, rfl, -, areColumns⟩ := numbers_of_spells_optional column
  exact ⟨lines ++ columns, List.forall_mem_append.2 ⟨areLines, areColumns⟩, blanks ++ last, by simp,
    isBlank_of_spells_lineEnd ends⟩

/-- Behind a file no other part than a number is captured. -/
theorem captured_of_placeEnd {middle : Cursor} {part : Part} (other : part ∉ [Part.line, .column])
    (matched : placeEnd.run middle found = some captures) :
    captures part = middle.captures part := by
  obtain ⟨after, isAfter, same⟩ := exists_of_run matched
  obtain rfl : after.captures = captures := Option.some.inj same
  refine captures_of_mem_outcomes ?_ isAfter
  cases part with
  | line => exact absurd (by decide) other
  | column => exact absurd (by decide) other
  | _ => rfl

section Cut

/-- Blanks in front of a bundle leave it one. -/
theorem IsBundle.append (isBundle : IsBundle name)
    (blank : ∀ char ∈ indent, Text.isBlank char = true) : IsBundle (indent ++ name) where
  noSign := by
    rw [List.mem_append, not_or]
    exact ⟨Text.not_mem_of_blank blank (by decide), isBundle.noSign⟩
  ends := by
    rw [List.map_append]
    exact isBundle.ends.trans (List.suffix_append _ _)

/-- A bundle behind blanks is one without them, since its last word has none. -/
theorem IsBundle.of_append (isBundle : IsBundle (indent ++ name))
    (blank : ∀ char ∈ indent, Text.isBlank char = true) : IsBundle name := by
  obtain ⟨noSign, front, ends⟩ := isBundle
  refine ⟨fun isIn => noSign (List.mem_append_right _ isIn), ?_⟩
  rw [List.map_append] at ends
  rcases List.append_eq_append_iff.1 ends with ⟨late, isIndent, isWord⟩ | ⟨early, -, isName⟩
  · cases late with
    | nil => exact ⟨[], isWord⟩
    | cons first late =>
      have isFirst : 'b' = first := (List.cons_eq_cons.1 isWord).1
      have inIndent : first ∈ indent.map Text.foldCase := by
        rw [isIndent]
        exact List.mem_append_right _ List.mem_cons_self
      obtain ⟨char, isIn, folded⟩ := List.mem_map.1 inIndent
      have isBlank := blank char isIn
      rw [Text.foldCase_of_isBlank isBlank] at folded
      rw [folded, ← isFirst] at isBlank
      exact absurd isBlank (by decide)
  · exact ⟨early, isName.symm⟩

/-- A bundle is not blank. -/
theorem IsBundle.not_blank (isBundle : IsBundle name) :
    ¬ ∀ char ∈ name, Text.isBlank char = true := by
  intro blank
  rw [← List.append_nil name] at isBundle
  have nothing := (isBundle.of_append blank).ends
  exact absurd nothing (by decide)

theorem IsBundle.exists_word (isBundle : IsBundle name) :
    ∃ before bundle, name = before ++ bundle ∧ bundle.map Text.foldCase = "bundle".toList := by
  obtain ⟨front, ends⟩ := isBundle.ends
  obtain ⟨before, bundle, rfl, -, folded⟩ := List.map_eq_append_iff.1 ends.symm
  exact ⟨before, bundle, rfl, folded⟩

/-- A file with a place behind it does not end within a bundle. -/
theorem IsBundle.front_of_cut (isBundle : IsBundle name) {numbers : List (List Char)}
    (isPlace : IsPlace numbers [] rest) (cut : name ++ place = file ++ rest) : name <+: file := by
  obtain ⟨before, bundle, rfl, folded⟩ := isBundle.exists_word
  rcases List.append_eq_append_iff.1 cut with ⟨more, rfl, -⟩ | ⟨late, isName, rfl⟩
  · exact List.prefix_append _ _
  · obtain rfl := eq_nil_of_bundle_in_place folded isName isPlace
    rw [isName, List.append_nil]

/-- Where a line begins with a bundle and with a word that the third form asks of pages, the word
ends within the bundle: no such word has all of its letters. -/
theorem IsBundle.opening_inside (isBundle : IsBundle name) {opening : List Char}
    (spells : geckoFileStart.Spells offset opening rest) (cut : name ++ place = opening ++ rest) :
    opening <+: name := by
  have noLetter : geckoFileStart.ConsumesOnly fun char => Text.foldCase char ≠ 'd' := by
    have letterless (wanted : String) (absent : 'd' ∉ wanted.toList) :
        (word wanted).ConsumesOnly fun char => Text.foldCase char ≠ 'd' := by
      simp only [word, consumesOnly_all, List.mem_map, forall_exists_index, and_imp]
      rintro _ letter isLetter rfl char folded
      rw [of_decide_eq_true folded]
      rintro rfl
      exact absent isLetter
    simp (disch := decide) [geckoFileStart, httpScheme, letterless]
  rcases List.append_eq_append_iff.1 cut with ⟨more, rfl, -⟩ | ⟨late, isName, -⟩
  · obtain ⟨front, ends⟩ := isBundle.ends
    have isIn : 'd' ∈ name.map Text.foldCase := by
      rw [← ends]
      exact List.mem_append_right _ (by decide)
    obtain ⟨char, isIn, folded⟩ := List.mem_map.1 isIn
    exact absurd folded (spells.all noLetter char (List.mem_append_left _ isIn))
  · exact ⟨late, isName.symm⟩

/-- A line that is a bundle with no more than a place behind it. -/
structure IsBundleLine (name place : List Char) : Prop where
  name : IsBundle name
  place : placeEnd.Begins 0 place

/-- The line is a bundle with no more than a place behind it. -/
def EndsInBundle (line : List Char) : Prop :=
  ∃ name place, line = name ++ place ∧ IsBundleLine name place

/-- Blanks in front belong to the bundle. -/
theorem IsBundleLine.append (isBundle : IsBundleLine name place)
    (blank : ∀ char ∈ indent, Text.isBlank char = true) : IsBundleLine (indent ++ name) place :=
  ⟨isBundle.name.append blank, isBundle.place⟩

end Cut

section Front

theorem begins_geckoEnd : geckoEnd.Begins offset line ↔
    pageEnd.Begins offset line ∨ bundleEnd.Begins offset line := by
  rw [← begins_either]
  exact begins_congr fun _ => run_geckoEnd_eq_run_either

/-- The third form finds a bundle where one stands. -/
theorem begins_bundleEnd (isBundle : IsBundleLine name place) :
    bundleEnd.Begins 0 (name ++ place) := by
  obtain ⟨before, bundle, rfl, folded⟩ := isBundle.name.exists_word
  have noSign : ∀ char ∈ before, decide (char ≠ '@') = true := by
    intro char isIn
    refine decide_eq_true fun isSign => ?_
    subst isSign
    exact isBundle.name.noSign (List.mem_append_left _ isIn)
  refine begins_seq.2 ⟨before ++ bundle, place, rfl, ?_, ?_⟩
  · exact .capture (.seq (.greedy noSign) (spells_word.2 folded))
  · rw [Nat.zero_add]
    exact (begins_shift unanchored_placeEnd (before ++ bundle).length).2 isBundle.place

/-- What the third form finds there is a bundle. -/
theorem isBundle_of_spells {taken : List Char}
    (spells : (seq (greedy (· ≠ '@')) (word "bundle")).Spells offset taken rest) :
    IsBundle taken := by
  obtain ⟨before, bundle, rfl, noSign, isWord⟩ := spells_seq.1 spells
  have folded := spells_word.1 isWord
  constructor
  · rw [List.mem_append, not_or]
    exact ⟨fun isIn => absurd rfl (of_decide_eq_true (spells_greedy.1 noSign '@' isIn)),
      Text.not_mem_of_map_foldCase folded (by decide) (by decide)⟩
  · rw [List.map_append, folded]
    exact List.suffix_append _ _

/-- A line stands alone behind blanks exactly if it is a bundle: in front of blanks the third form
knows no file by its beginning. -/
theorem standsAlone_append_iff (blank : ∀ char ∈ indent, Text.isBlank char = true)
    (nonempty : indent ≠ []) : StandsAlone (indent ++ line) ↔ EndsInBundle line := by
  rw [standsAlone_iff, begins_geckoEnd]
  constructor
  · rintro (page | bundle)
    · obtain ⟨_, _, cut, captured, -⟩ := begins_seq.1 page
      obtain ⟨opening, path, rfl, start, -⟩ := spells_seq.1 (spells_capture.1 captured)
      obtain ⟨first, indent, rfl⟩ := List.exists_cons_of_ne_nil nonempty
      rw [List.append_assoc] at cut
      exact absurd start
        (not_spells_geckoFileStart_of_isBlank (blank first List.mem_cons_self) cut.symm)
    · obtain ⟨name, place, cut, captured, begins⟩ := begins_seq.1 bundle
      have isBundle := isBundle_of_spells (spells_capture.1 captured)
      rcases List.append_eq_append_iff.1 cut with ⟨inner, rfl, rfl⟩ | ⟨late, rfl, -⟩
      · exact ⟨inner, place, rfl, isBundle.of_append blank,
          (begins_shift unanchored_placeEnd _).1 begins⟩
      · exact absurd (List.forall_mem_append.1 blank).1 isBundle.not_blank
  · rintro ⟨name, place, rfl, isBundle⟩
    rw [← List.append_assoc]
    exact .inr (begins_bundleEnd (isBundle.append blank))

/-- The file is captured as far as the place behind it. -/
theorem captured_of_file (matched : placeEnd.run ⟨offset, rest, start.set .file ⟨0, offset⟩⟩ found =
    some captures) : captures .file = some ⟨0, offset⟩ ∧ captures .method = start .method := by
  have method : Part.method ≠ .file := by decide
  rw [captured_of_placeEnd (by decide) matched, captured_of_placeEnd (by decide) matched]
  exact ⟨Captures.set_self start .file ⟨0, offset⟩, Captures.set_of_ne start ⟨0, offset⟩ method⟩

/-- A bundle that begins like a page is captured as a whole. -/
theorem captured_of_pageEnd (isBundle : IsBundleLine name place)
    (matched : pageEnd.run ⟨0, name ++ place, start⟩ found = some captures) :
    captures .file = some ⟨0, name.length⟩ ∧ captures .method = start .method := by
  have unfolded : pageEnd.run ⟨0, name ++ place, start⟩ found =
      geckoFileStart.run ⟨0, name ++ place, start⟩ fun middle =>
        runSparing isInLine middle.captures
          (fun after => placeEnd.run (after.capture .file 0) found) middle.offset middle.rest := rfl
  rw [unfolded] at matched
  obtain ⟨middle, isMiddle, matched⟩ := exists_of_run matched
  obtain ⟨opening, rest, cut, spells, rfl⟩ :=
    mem_outcomes_of_isSilent isSilent_geckoFileStart isMiddle
  obtain ⟨path, behind, rfl, ends, shorter⟩ := exists_of_runSparing matched
  obtain ⟨numbers, isPlace⟩ := isPlace_of_begins (begins_of_run ends)
  obtain ⟨front, rfl⟩ := isBundle.name.opening_inside spells cut
  rw [← List.append_assoc] at cut
  obtain ⟨late, isFile⟩ := isBundle.name.front_of_cut isPlace cut
  rw [List.append_assoc] at isFile
  obtain rfl := List.append_cancel_left isFile
  have placeCut : place = late ++ behind := by simpa using cut
  -- the place begins right behind the bundle, and a lazy path does not go on where it may end
  have nothing : late = [] := by
    by_contra nonempty
    have refused := shorter front late rfl nonempty
    rw [← placeCut] at refused
    have begins (offset : Nat) : placeEnd.Begins offset place :=
      (begins_shift unanchored_placeEnd offset).2 isBundle.place
    exact run_eq_none_iff.1 refused (begins _)
  subst nothing
  have isEnd : (opening ++ front).length = 0 + opening.length + (front ++ []).length := by simp
  rw [isEnd]
  exact captured_of_file ends

/-- A bundle is captured as a whole. -/
theorem captured_of_bundleEnd (isBundle : IsBundleLine name place)
    (matched : bundleEnd.run ⟨0, name ++ place, start⟩ found = some captures) :
    captures .file = some ⟨0, name.length⟩ ∧ captures .method = start .method := by
  obtain ⟨middle, isMiddle, matched⟩ := exists_of_run (run_seq.symm.trans matched)
  obtain ⟨inner, isInner, rfl⟩ := List.mem_map.1 isMiddle
  have silent : (seq (greedy (· ≠ '@')) (word "bundle")).IsSilent := fun _ => rfl
  obtain ⟨file, rest, cut, spells, rfl⟩ := mem_outcomes_of_isSilent silent isInner
  have ends : placeEnd.run ⟨0 + file.length, rest, start.set .file ⟨0, 0 + file.length⟩⟩ found =
      some captures := matched
  obtain ⟨_, isRest⟩ := isPlace_of_begins (begins_of_run ends)
  obtain ⟨_, isPlace⟩ := isPlace_of_begins isBundle.place
  have inFile := isBundle.name.front_of_cut isRest cut
  have inName := (isBundle_of_spells spells).front_of_cut isPlace cut.symm
  have isEnd : name.length = 0 + file.length :=
    (Nat.le_antisymm inFile.length_le inName.length_le).trans (Nat.zero_add _).symm
  rw [isEnd]
  exact captured_of_file ends

/-- The third form captures the whole bundle in front of a place. -/
theorem captured_of_bundle (isBundle : IsBundleLine name place)
    (matched : geckoEnd.run ⟨0, name ++ place, start⟩ found = some captures) :
    captures .file = some ⟨0, name.length⟩ ∧ captures .method = start .method := by
  rw [run_geckoEnd_eq_run_either] at matched
  cases page : pageEnd.run ⟨0, name ++ place, start⟩ found with
  | some other =>
    obtain rfl := Option.some.inj ((run_either_of_some page).symm.trans matched)
    exact captured_of_pageEnd isBundle page
  | none =>
    rw [run_either_of_none page] at matched
    exact captured_of_bundleEnd isBundle matched

/-- In a line without an at sign, the third form finds a file at the very front or nothing. -/
theorem exists_of_matchFront?_gecko (noSign : '@' ∉ line)
    (matched : geckoPattern.matchFront? line = some captures) :
    ∃ start : Captures, (∀ span ∈ start .method, span.stop = 0) ∧
      geckoEnd.run ⟨0, line, start⟩ found = some captures := by
  rw [matchFront?_gecko_eq] at matched
  obtain ⟨⟨offset, rest, start⟩, isMiddle, matched⟩ := exists_of_run_inTurn matched
  have unsigned : (char '@').run ⟨offset, rest, start⟩ (fun middle => geckoEnd.run middle found) =
      none := by
    obtain ⟨taken, spelled⟩ := spelled_of_mem_outcomes isMiddle
    have cut : line = taken ++ rest := spelled.rest
    refine run_char_of_not_mem fun isIn => noSign ?_
    rw [cut]
    exact List.mem_append_right _ isIn
  rw [run_seq] at matched
  cases front : atStart.run ⟨offset, rest, start⟩ (fun middle => geckoEnd.run middle found) with
  | none =>
    rw [run_either_of_none front, unsigned] at matched
    cases matched
  | some other =>
    obtain rfl := Option.some.inj ((run_either_of_some front).symm.trans matched)
    by_cases atFront : offset = 0
    · subst atFront
      obtain rfl : rest = line := rest_of_mem_outcomes isMiddle rfl
      refine ⟨start, fun span isSpan => ?_, front⟩
      rcases (capturesBetween_of_mem_outcomes isMiddle).captured .method span isSpan with
        nothing | between
      · cases nothing
      · exact Nat.le_zero.1 between.stop
    · rw [run_atStart_of_ne atFront] at front
      cases front

/-- The third form matches a line that stands alone. -/
theorem StandsAlone.isSome (alone : StandsAlone line) :
    (geckoPattern.matchFront? line).isSome = true := by
  obtain ⟨taken, rest, rfl, spells⟩ := standsAlone_iff.1 alone
  have skip {first second : Pattern} (nothing : first.Spells 0 [] (taken ++ rest))
      (behind : second.Spells 0 taken rest) : (seq first second).Spells 0 taken rest :=
    .seq nothing behind
  refine matchFront?_isSome_iff.2 ⟨taken, rest, rfl, ?_⟩
  refine skip .atStart (skip (.greedy (List.forall_mem_nil _)) ?_)
  refine skip (.capture (.sparing (List.forall_mem_nil _))) (skip (.right .empty) ?_)
  exact skip (.left .atStart) spells

/-- The third form reads a bundle with a place at the front of a line as what it is. -/
theorem written?_of_bundle (isBundle : IsBundleLine name place) :
    ∃ line column, Grammar.gecko.written? (name ++ place) =
      some (WrittenFrame.mk [] name line column).outOfNestedEval := by
  have alone : StandsAlone (name ++ place) :=
    standsAlone_iff.2 (begins_geckoEnd.2 (.inr (begins_bundleEnd isBundle)))
  have noSign : '@' ∉ name ++ place := by
    obtain ⟨numbers, isPlace⟩ := isPlace_of_begins isBundle.place
    rw [List.mem_append, not_or]
    exact ⟨isBundle.name.noSign, isPlace.not_mem (by decide)⟩
  obtain ⟨captures, matched⟩ := Option.isSome_iff_exists.1 alone.isSome
  obtain ⟨start, noMethod, atFront⟩ := exists_of_matchFront?_gecko noSign matched
  obtain ⟨isFile, isMethod⟩ := captured_of_bundle isBundle atFront
  refine ⟨captures.text? .line (name ++ place), captures.text? .column (name ++ place), ?_⟩
  have file : captures.text? .file (name ++ place) = some name := by
    have piece : Span.of ⟨0, name.length⟩ (name ++ place) = name :=
      Span.of_eq (List.nil_append _).symm rfl (Nat.zero_add _).symm
    rw [Captures.text?, isFile, Option.map_some, piece]
  have method : (captures.text? .method (name ++ place)).getD [] = [] := by
    rw [Captures.text?, isMethod]
    cases here : start .method with
    | none => rfl
    | some span => simp [Span.of, noMethod span here]
  have parts : WrittenFrame.ofCaptures (name ++ place) captures =
      ⟨[], name, captures.text? .line (name ++ place), captures.text? .column (name ++ place)⟩ := by
    rw [WrittenFrame.ofCaptures, file, method]
    rfl
  rw [written?_eq_some .gecko matched parts]
  rfl

end Front

section Evaluation

/-- A file of evaluated code that tells where the evaluation is. -/
structure IsEvaluated (file : List Char) : Prop where
  marked : " > eval".toList <:+: file
  origin : (geckoOriginPattern.search? file).isSome = true

/-- The origin of evaluated code is found behind blanks as well. -/
theorem search?_geckoOrigin_append (blank : ∀ char ∈ indent, Text.isBlank char = true)
    (file : List Char) : geckoOriginPattern.search? (indent ++ file) =
      (geckoOriginPattern.search? file).map (Captures.shift indent.length) := by
  have avoids : geckoOriginPattern.AvoidsBlanks :=
    AvoidsBlanks.capture (avoidsBlanks_one refusesBlanks_unspaced).assoc
  have free : geckoOriginPattern.Unanchored = true := rfl
  have passed : geckoOriginPattern.searchFrom? 0 (indent ++ file) =
      geckoOriginPattern.searchFrom? (0 + indent.length) file := by
    refine searchFrom?_append fun front char late cut => run_eq_none_iff.2 ?_
    refine avoids _ char _ (blank char ?_)
    rw [cut]
    simp
  rw [search?, passed, Nat.zero_add, search?, ← searchFrom?_shift free, Nat.add_zero]

/-- Evaluated code is moved to the same place behind blanks. -/
theorem outOfNestedEval_append (isEvaluated : IsEvaluated file)
    (blank : ∀ char ∈ indent, Text.isBlank char = true)
    {line column otherLine otherColumn : Option (List Char)} :
    (WrittenFrame.mk [] (indent ++ file) line column).outOfNestedEval =
      (WrittenFrame.mk [] file otherLine otherColumn).outOfNestedEval := by
  obtain ⟨captures, search⟩ := Option.isSome_iff_exists.1 isEvaluated.origin
  have marked : Text.occurs " > eval".toList file = true := Text.occurs_iff.2 isEvaluated.marked
  have alsoMarked : Text.occurs " > eval".toList (indent ++ file) = true :=
    Text.occurs_iff.2 (isEvaluated.marked.trans (List.suffix_append _ _).isInfix)
  have moved : geckoOriginPattern.search? (indent ++ file) =
      some (captures.shift indent.length) := by
    rw [search?_geckoOrigin_append blank, search, Option.map_some]
  unfold WrittenFrame.outOfNestedEval
  dsimp only
  rw [if_pos marked, if_pos alsoMarked, moved, search]
  dsimp only
  rw [ofCaptures_shift]

/-- All other files are left where they are. -/
theorem outOfNestedEval_of_not_isEvaluated {written : WrittenFrame}
    (notEvaluated : ¬ IsEvaluated written.file) : written.outOfNestedEval = written := by
  unfold WrittenFrame.outOfNestedEval
  split
  next marked =>
    split
    next captures search =>
      exact absurd ⟨Text.occurs_iff.1 marked, Option.isSome_of_mem search⟩ notEvaluated
    next => rfl
  next => rfl

/-- Behind blanks no file is read as it is: it has the blanks, or at most what stands in front of
the words of an evaluation. -/
theorem file_outOfNestedEval_append_ne (blank : ∀ char ∈ indent, Text.isBlank char = true)
    (nonempty : indent ≠ []) {line column : Option (List Char)} :
    (WrittenFrame.mk [] (indent ++ file) line column).outOfNestedEval.file ≠ file := by
  by_cases evaluated : IsEvaluated (indent ++ file)
  · obtain ⟨captures, search⟩ := Option.isSome_iff_exists.1 evaluated.origin
    have marked : Text.occurs " > eval".toList (indent ++ file) = true :=
      Text.occurs_iff.2 evaluated.marked
    have inner := search
    rw [search?_geckoOrigin_append blank] at inner
    obtain ⟨inFile, found, rfl⟩ := Option.map_eq_some_iff.1 inner
    obtain ⟨front, origin, mark, number, rest, cut, evaluation, -, parts⟩ :=
      ofCaptures_of_geckoOrigin found
    unfold WrittenFrame.outOfNestedEval
    dsimp only
    rw [if_pos marked, search]
    dsimp only
    rw [ofCaptures_shift, parts, cut]
    intro same
    have words := congrArg List.length evaluation.1
    have length := congrArg List.length same
    simp at words length
    omega
  · rw [outOfNestedEval_of_not_isEvaluated evaluated]
    exact fun same => nonempty (List.append_left_eq_self.1 same)

end Evaluation

end Grammar

end Retrace
