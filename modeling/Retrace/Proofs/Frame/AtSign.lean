import Retrace.Proofs.Frame.RoundTrip

/-!
# Frames with an at sign

Two forms write a frame as its method, an at sign and the file with its place. The third form of the
grammars takes such a line if it knows the file by its beginning or its end, and the fifth one takes
what is left; both capture the same parts. The third form also looks for a file at the very front,
though, and there it takes a method that begins like a page together with the file behind it.
-/

namespace Retrace

namespace Grammar

open Pattern

/-- A method or a file that can stand beside an at sign. -/
structure IsSide (text : List Char) : Prop where
  nonempty : text ≠ []
  unspaced : ∀ char ∈ text, Text.isBlank char = false
  undivided : ∀ char ∈ ['(', '@'], char ∉ text

instance (text : List Char) : Decidable (IsSide text) :=
  decidable_of_iff
    (text ≠ [] ∧ (text.all fun char => decide (Text.isBlank char = false)) = true ∧
      (['(', '@'].all fun char => decide (char ∉ text)) = true)
    ⟨fun ⟨nonempty, unspaced, undivided⟩ =>
      ⟨nonempty, Text.all_decide_iff.1 unspaced, Text.all_decide_iff.1 undivided⟩,
    fun isSide => ⟨isSide.nonempty, Text.all_decide_iff.2 isSide.unspaced,
      Text.all_decide_iff.2 isSide.undivided⟩⟩

/-- A text begins, without regard to case, with one of the words by which the third form knows a
page. -/
def BeginsPage (text : List Char) : Prop :=
  ∃ wanted ∈ pageWords, wanted.toList <+: text.map Text.foldCase

instance (text : List Char) : Decidable (BeginsPage text) :=
  inferInstanceAs (Decidable (∃ wanted ∈ pageWords, wanted.toList <+: text.map Text.foldCase))

/-- A frame with an at sign. -/
def signedText (method file line column : List Char) : List Char :=
  method ++ '@' :: (file ++ placeUpTo [] line column)

/-- The parts of a frame with an at sign. -/
structure IsSigned (method file line column : List Char) : Prop where
  method : IsSide method
  file : IsSide file
  line : IsNumber line
  column : IsNumber column

/-- What is captured of a frame with an at sign. -/
def signedCaptures (method file line column : List Char) : Captures :=
  captureFile (Captures.none.set .method ⟨0, method.length⟩) (method.length + 1) file line column

theorem IsSide.inLine {text : List Char} (isSide : IsSide text) :
    ∀ char ∈ text, isInLine char = true :=
  inLine_of_unspaced isSide.unspaced

theorem IsSide.not_mem {text : List Char} (isSide : IsSide text) {char : Char}
    (divides : char ∈ ['(', '@', ' ']) : char ∉ text := by
  simp only [List.mem_cons, List.not_mem_nil, or_false] at divides
  rcases divides with rfl | rfl | rfl
  · exact isSide.undivided '(' (by decide)
  · exact isSide.undivided '@' (by decide)
  · exact Text.not_mem_of_unspaced isSide.unspaced (by decide)

variable {method file line column : List Char} {captures : Captures} {offset : Nat}

namespace IsSigned

/-- Behind the at sign there is neither another one, nor a parenthesis, nor a space. -/
theorem not_mem_reference (isSigned : IsSigned method file line column) {char : Char}
    (divides : char ∈ ['(', '@', ' ']) : char ∉ file ++ placeUpTo [] line column := by
  have apart : ∀ char ∈ ['(', '@', ' '], char ∈ [':', '(', ')', '@', '[', '\\', ' ', '\n'] ∧
      char ≠ ':' := Text.forall_mem_of_all (by decide)
  obtain ⟨isDivider, noColon⟩ := apart char divides
  have noFile := isSigned.file.not_mem divides
  have noLine := isSigned.line.not_mem isDivider
  have noColumn := isSigned.column.not_mem isDivider
  simp [placeUpTo, noFile, noLine, noColumn, noColon]

/-- Nowhere in the line there is a parenthesis or a space. -/
theorem not_mem_signedText (isSigned : IsSigned method file line column) {char : Char}
    (divides : char ∈ ['(', ' ']) : char ∉ signedText method file line column := by
  have also : ∀ char ∈ ['(', ' '], char ∈ ['(', '@', ' '] ∧ char ≠ '@' :=
    Text.forall_mem_of_all (by decide)
  obtain ⟨divides, noSign⟩ := also char divides
  rw [signedText, List.mem_append, not_or]
  exact ⟨isSigned.method.not_mem divides,
    List.not_mem_cons_of_ne_of_not_mem noSign (isSigned.not_mem_reference divides)⟩

/-- The only at sign is the one behind the method. -/
theorem split_at_sign (isSigned : IsSigned method file line column) {front behind : List Char}
    (cut : signedText method file line column = front ++ '@' :: behind) : front = method := by
  obtain ⟨same, -⟩ := (List.append_cons_inj_of_notMem (isSigned.method.not_mem (by decide))
    (isSigned.not_mem_reference (by decide))).1 cut
  exact same.symm

end IsSigned

/-- A form with a keyword needs a space. -/
theorem matchFront?_eq_none_of_not_mem_space {text : List Char} {others : Pattern}
    (noSpace : ' ' ∉ text) : (seq atKeyword others).matchFront? text = none := by
  rw [← Option.not_isSome_iff_eq_none, matchFront?_isSome_iff]
  rintro ⟨taken, rest, rfl, spells⟩
  obtain ⟨front, back, rfl, keyword, -⟩ := spells_seq.1 spells
  obtain ⟨blanks, letters, rfl, -, -⟩ := exists_of_spells_atKeyword keyword
  simp at noSpace

section Gecko

/-- The third form knows a method with what stands behind it only by the beginning of the method. -/
theorem beginsPage_of_knowsFile
    (known : KnowsFile offset (method ++ '@' :: rest)) : BeginsPage method := by
  rcases known with ⟨opening, path, cut, spells⟩ | ⟨name, bundle, place, cut, noSign, folded,
    numbers, isPlace⟩
  · obtain ⟨wanted, isOne, front, back, rfl, folded⟩ := exists_of_spells_geckoFileStart spells
    have signless : ∀ wanted ∈ pageWords, '@' ∉ wanted.toList := by decide
    have noSign := Text.not_mem_of_map_foldCase folded (by decide) (signless wanted isOne)
    have begins : front <+: method ++ '@' :: rest :=
      ⟨back ++ path, by rw [← List.append_assoc]; exact cut.symm⟩
    refine ⟨wanted, isOne, ?_⟩
    rw [← folded]
    exact (Text.prefix_of_prefix_separated noSign begins).map _
  · have noBundleSign : '@' ∉ bundle :=
      Text.not_mem_of_map_foldCase folded (by decide) (by decide)
    have noPlaceSign : '@' ∉ place := isPlace.not_mem (by decide)
    have absent : '@' ∉ name ++ (bundle ++ place) := by
      simp [noSign, noBundleSign, noPlaceSign]
    rw [← cut] at absent
    simp at absent

/-- The letter at the end of a bundle is in no place. -/
theorem IsPlace.not_mem_letter {numbers : List (List Char)} {place : List Char} {letter : Char}
    (isPlace : IsPlace numbers [] place) (foldsTo : Text.foldCase letter = 'e') :
    letter ∉ place := by
  obtain ⟨areNumbers, blanks, rfl, blank⟩ := isPlace
  rw [List.nil_append, List.mem_append, not_or]
  constructor
  · intro isIn
    obtain ⟨digits, isOne, isIn⟩ := List.mem_flatMap.1 isIn
    rcases List.mem_cons.1 isIn with rfl | isIn
    · exact absurd foldsTo (by decide)
    · have isDigit := (areNumbers digits isOne).digits letter isIn
      rw [Text.foldCase_of_isDigit isDigit] at foldsTo
      subst foldsTo
      exact absurd isDigit (by decide)
  · intro isIn
    have isBlank := blank letter isIn
    rw [Text.foldCase_of_isBlank isBlank] at foldsTo
    subst foldsTo
    exact absurd isBlank (by decide)

/-- The word at the end of a bundle does not reach into a place. -/
theorem eq_nil_of_bundle_in_place {before bundle further rest : List Char}
    {numbers : List (List Char)} (folded : bundle.map Text.foldCase = "bundle".toList)
    (cut : before ++ bundle = file ++ further) (isPlace : IsPlace numbers [] (further ++ rest)) :
    further = [] := by
  by_contra nonempty
  have isWord : bundle.map Text.foldCase = "bundl".toList ++ ['e'] := folded
  obtain ⟨letters, last, rfl, -, isLast⟩ := List.map_eq_append_iff.1 isWord
  obtain ⟨letter, rfl, foldsTo⟩ := List.map_eq_singleton_iff.1 isLast
  rw [← List.append_assoc] at cut
  have isFurther := Text.mem_of_append_singleton cut nonempty
  exact isPlace.not_mem_letter foldsTo (List.mem_append_left _ isFurther)

/-- The word at the end of a bundle does not reach into the place behind a file. -/
theorem further_eq_nil_of_bundle {before bundle further : List Char}
    (folded : bundle.map Text.foldCase = "bundle".toList) (cut : before ++ bundle = file ++ further)
    (inPlace : ∃ rest, placeUpTo [] line column = further ++ rest) (isLine : IsNumber line)
    (isColumn : IsNumber column) : further = [] := by
  obtain ⟨rest, inPlace⟩ := inPlace
  have isPlace : IsPlace [line, column] [] (further ++ rest) := by
    rw [← inPlace]
    exact ⟨by simp [isLine, isColumn], [], by simp [placeUpTo], List.forall_mem_nil _⟩
  exact eq_nil_of_bundle_in_place folded cut isPlace

/-- Finding the beginning of a file captures nothing by itself. -/
theorem isSilent_geckoFileStart : geckoFileStart.IsSilent := by
  intro part
  simp [geckoFileStart, anyOf, httpScheme, Pattern.optional, setsPart]

/-- A beginning of the third form ends within the file. -/
theorem inside_of_spells_geckoFileStart {opening place : List Char}
    (cut : file ++ ':' :: place = opening ++ rest)
    (spells : geckoFileStart.Spells offset opening rest) : opening <+: file := by
  have colonless : geckoFileStart.ConsumesOnly (· ≠ ':') := by
    simp (disch := decide) [geckoFileStart, httpScheme, consumesOnly_word]
  have noColon : ':' ∉ opening := fun isIn => spells.all colonless ':' isIn rfl
  exact Text.prefix_of_prefix_separated noColon ⟨rest, cut.symm⟩

/-- The third form from a file on that it knows by its beginning. -/
def pageEnd : Pattern :=
  seq (capture .file (seq geckoFileStart anything)) (seq (optional (numberPart .line)) openColumnEnd)

/-- The third form from a file on that it knows by its end. -/
def bundleEnd : Pattern :=
  seq (capture .file (seq (greedy (· ≠ '@')) (word "bundle")))
    (seq (optional (numberPart .line)) openColumnEnd)

/-- The third form looks for the end of a file where its beginning leads to nothing. -/
theorem run_geckoEnd_eq_run_either {cursor : Cursor} :
    geckoEnd.run cursor found = (either pageEnd bundleEnd).run cursor found := rfl

/-- A file that begins as the third form asks is captured with its place. -/
theorem run_pageEnd (inLine : ∀ char ∈ file, isInLine char = true) (isLine : IsNumber line)
    (isColumn : IsNumber column)
    (begins : ∃ opening path, file ++ placeUpTo [] line column = opening ++ path ∧
      geckoFileStart.Spells offset opening path) :
    pageEnd.run ⟨offset, file ++ placeUpTo [] line column, captures⟩ found =
      some (captureFile captures offset file line column) :=
  run_file isSilent_geckoFileStart .wanted .unclosed inLine isLine isColumn begins
    fun _ _ cut spells => inside_of_spells_geckoFileStart cut spells

/-- If a file ends as the third form asks, it is captured with its place. -/
theorem run_bundleEnd_atMost (isLine : IsNumber line) (isColumn : IsNumber column) :
    AtMost (bundleEnd.run · found) (captureFile captures offset file line column)
      ⟨offset, file ++ placeUpTo [] line column, captures⟩ := by
  have silent : (seq (greedy (· ≠ '@')) (word "bundle")).IsSilent := by
    intro part
    simp [setsPart]
  have unfolded : bundleEnd.run ⟨offset, file ++ placeUpTo [] line column, captures⟩ found =
      (seq (greedy (· ≠ '@')) (word "bundle")).run
        ⟨offset, file ++ placeUpTo [] line column, captures⟩ fun after =>
          (seq (optional (numberPart .line)) openColumnEnd).run (after.capture .file offset)
            found := rfl
  have here : AtMost
      (fun after => (seq (optional (numberPart .line)) openColumnEnd).run
        (after.capture .file offset) found)
      (captureFile captures offset file line column)
      ⟨offset + file.length, placeUpTo [] line column, captures⟩ :=
    .inr (run_place .wanted .unclosed isLine isColumn)
  rw [AtMost, unfolded]
  refine run_atMost fun after isAfter => ?_
  obtain ⟨taken, rest, cut, spells, rfl⟩ := mem_outcomes_of_isSilent silent isAfter
  obtain ⟨name, bundle, rfl, -, isBundle⟩ := spells_seq.1 spells
  rcases List.append_eq_append_iff.1 cut with ⟨further, isTaken, inPlace⟩ | ⟨late, rfl, rfl⟩
  -- a longer file would end in a digit or a colon, and a shorter one leaves more than a place
  · obtain rfl := further_eq_nil_of_bundle (spells_word.1 isBundle) isTaken ⟨rest, inPlace⟩ isLine
      isColumn
    rw [List.append_nil] at isTaken
    rw [List.nil_append] at inPlace
    rw [isTaken, ← inPlace]
    exact here
  · by_cases none : late = []
    · subst none
      simpa using here
    · exact .inl (run_place_eq_none .wanted .unclosed none)

/-- The third form does not contradict the file that is written and its place. -/
theorem run_geckoEnd_atMost (inLine : ∀ char ∈ file, isInLine char = true) (isLine : IsNumber line)
    (isColumn : IsNumber column) :
    AtMost (geckoEnd.run · found) (captureFile captures offset file line column)
      ⟨offset, file ++ placeUpTo [] line column, captures⟩ := by
  have page : AtMost (pageEnd.run · found) (captureFile captures offset file line column)
      ⟨offset, file ++ placeUpTo [] line column, captures⟩ := by
    by_cases begins : ∃ opening path, file ++ placeUpTo [] line column = opening ++ path ∧
        geckoFileStart.Spells offset opening path
    · exact .inr (run_pageEnd inLine isLine isColumn begins)
    · refine .inl (run_eq_none fun taken rest cut spells => begins ?_)
      obtain ⟨_, behind, rfl, captured, -⟩ := spells_seq.1 spells
      obtain ⟨opening, path, rfl, start, -⟩ := spells_seq.1 (spells_capture.1 captured)
      exact ⟨opening, path ++ (behind ++ rest), by rw [cut]; simp, start⟩
  rw [AtMost, run_geckoEnd_eq_run_either]
  exact run_either_atMost page (run_bundleEnd_atMost isLine isColumn)

/-- The arguments of a method in parentheses. -/
def argumentList : Pattern :=
  Pattern.all [char '(', capture .arguments anything, char ')']

/-- There are no arguments where no parenthesis stands in front. -/
theorem run_argumentList_of_head {text : List Char} {next : Continuation Captures}
    (unopened : text.head? ≠ some '(') :
    (optional argumentList).run ⟨offset, text, captures⟩ next = next ⟨offset, text, captures⟩ := by
  apply run_optional_of_none
  rw [argumentList, run_all_cons]
  exact run_char_of_head unopened

/-- There are no arguments where there is no parenthesis. -/
theorem run_argumentList {text : List Char} {next : Continuation Captures} (absent : '(' ∉ text) :
    (optional argumentList).run ⟨offset, text, captures⟩ next = next ⟨offset, text, captures⟩ :=
  run_argumentList_of_head fun isHead => absent (List.mem_of_head? isHead)

/-- The third form behind the method. -/
def afterMethod : Pattern :=
  seq (optional argumentList) (seq (either atStart (char '@')) geckoEnd)

/-- Where a file would begin with a method that begins like no page, there is none. -/
theorem run_geckoEnd_eq_none (noPage : ¬ BeginsPage method) :
    geckoEnd.run ⟨offset, method ++ '@' :: rest, captures⟩ found = none := by
  refine run_eq_none fun taken behind cut spells => noPage ?_
  have known := knowsFile_of_spells_geckoEnd spells
  rw [← cut] at known
  exact beginsPage_of_knowsFile known

/-- At the front of the line, the third form may find a file instead of an at sign. -/
theorem run_afterMethod_atFront {text : List Char} {result : Captures} (absent : '(' ∉ text)
    (here : geckoEnd.run ⟨0, text, captures⟩ found = some result) :
    afterMethod.run ⟨0, text, captures⟩ found = some result := by
  rw [afterMethod, run_seq, run_argumentList absent, run_seq]
  exact run_either_of_some (run_atStart.trans here)

/-- Where no file begins with the line, a method without arguments ends at an at sign. -/
theorem run_afterMethod_of_refused {text : List Char} (unopened : text.head? ≠ some '(')
    (refused : offset = 0 → geckoEnd.run ⟨offset, text, captures⟩ found = none) :
    afterMethod.run ⟨offset, text, captures⟩ found =
      (char '@').run ⟨offset, text, captures⟩ fun middle => geckoEnd.run middle found := by
  have notFront : atStart.run ⟨offset, text, captures⟩ (fun middle => geckoEnd.run middle found) =
      none := by
    by_cases atFront : offset = 0
    · subst atFront
      exact run_atStart.trans (refused rfl)
    · exact run_atStart_of_ne atFront
  rw [afterMethod, run_seq, run_argumentList_of_head unopened, run_seq]
  exact run_either_of_none notFront

/-- Behind the front of the line, the third form finds a file behind an at sign. -/
theorem run_afterMethod_atSign (passed : offset ≠ 0) :
    afterMethod.run ⟨offset, '@' :: rest, captures⟩ found =
      geckoEnd.run ⟨offset + 1, rest, captures⟩ found := by
  rw [run_afterMethod_of_refused (by simp) fun atFront => absurd atFront passed]
  exact run_char

/-- The third form takes a method from the first character on, if that is no blank. -/
theorem matchFront?_gecko {text : List Char}
    (unspaced : ∀ char ∈ text.head?, Text.isBlank char = false) :
    geckoPattern.matchFront? text = runSparing isInLine Captures.none
      (fun after => afterMethod.run (after.capture .method 0) found) 0 text := by
  have unfolded : geckoPattern.matchFront? text = runGreedy Text.isBlank Captures.none
      (fun middle => runSparing isInLine middle.captures
        (fun after => afterMethod.run (after.capture .method middle.offset) found)
        middle.offset middle.rest) 0 text := rfl
  rw [unfolded, runGreedy_of_stop unspaced]

namespace IsSigned

/-- A frame with an at sign does not begin with a blank. -/
theorem unspaced (isSigned : IsSigned method file line column) :
    ∀ char ∈ (signedText method file line column).head?, Text.isBlank char = false := by
  intro char isHead
  obtain ⟨first, others, rfl⟩ := List.exists_cons_of_ne_nil isSigned.method.nonempty
  obtain rfl := Option.some.inj isHead
  exact isSigned.method.unspaced first List.mem_cons_self

/-- The third form ends a method in front of the at sign, or it begins a file with the line. -/
theorem front_of_spells_afterMethod (isSigned : IsSigned method file line column)
    {front taken rest : List Char}
    (cut : signedText method file line column = front ++ (taken ++ rest))
    (spells : afterMethod.Spells front.length taken rest) :
    front = method ∨ front = [] ∧ BeginsPage method := by
  have noParenthesis : '(' ∉ signedText method file line column :=
    isSigned.not_mem_signedText (by decide)
  obtain ⟨arguments, _, rfl, left, behind⟩ := spells_seq.1 spells
  obtain ⟨sign, ending, rfl, anchored, known⟩ := spells_seq.1 behind
  rcases spells_optional.1 left with written | rfl
  · obtain ⟨_, others, rfl, parenthesis, -⟩ := spells_all_cons.1 written
    obtain rfl := spells_char.1 parenthesis
    rw [cut] at noParenthesis
    simp at noParenthesis
  · rcases spells_either.1 anchored with atFront | isSign
    · obtain ⟨rfl, isFront⟩ := spells_atStart.1 atFront
      obtain rfl : front = [] := List.length_eq_zero_iff.1 isFront
      refine .inr ⟨rfl, ?_⟩
      have begins := knowsFile_of_spells_geckoEnd known
      have whole : ending ++ rest = signedText method file line column := cut.symm
      rw [whole] at begins
      exact beginsPage_of_knowsFile begins
    · obtain rfl := spells_char.1 isSign
      exact .inl (isSigned.split_at_sign cut)

/-- If the method does not begin like a page, the third form ends it nowhere else. -/
theorem run_afterMethod_eq_none (isSigned : IsSigned method file line column)
    (noPage : ¬ BeginsPage method) {front behind : List Char}
    (cut : signedText method file line column = front ++ behind) (other : front ≠ method) :
    afterMethod.run ⟨front.length, behind, captures⟩ found = none := by
  refine run_eq_none fun taken rest same spells => ?_
  rw [same] at cut
  rcases isSigned.front_of_spells_afterMethod cut spells with isMethod | ⟨-, page⟩
  · exact other isMethod
  · exact noPage page

/-- The third form refuses a frame with an at sign or captures its parts, if the method does not begin
like a page. -/
theorem matchFront?_gecko_atMost (isSigned : IsSigned method file line column)
    (noPage : ¬ BeginsPage method) :
    geckoPattern.matchFront? (signedText method file line column) = none ∨
      geckoPattern.matchFront? (signedText method file line column) =
        some (signedCaptures method file line column) := by
  have behindMethod : geckoPattern.matchFront? (signedText method file line column) =
      afterMethod.run ⟨0 + method.length, '@' :: (file ++ placeUpTo [] line column),
        Captures.none.set .method ⟨0, 0 + method.length⟩⟩ found := by
    rw [matchFront?_gecko isSigned.unspaced]
    refine runSparing_eq_of_refused isSigned.method.inLine ?_ ?_
    · rintro front late rfl nonempty
      rw [Nat.zero_add]
      exact isSigned.run_afterMethod_eq_none noPage (by simp [signedText]) (by simpa using nonempty)
    · intro more behind cut nonempty
      rw [Nat.zero_add, ← List.length_append]
      exact isSigned.run_afterMethod_eq_none noPage (by simp [signedText, cut])
        (by simpa using nonempty)
  have passed : method.length ≠ 0 := mt List.length_eq_zero_iff.1 isSigned.method.nonempty
  rw [behindMethod, Nat.zero_add, run_afterMethod_atSign passed]
  exact run_geckoEnd_atMost isSigned.file.inLine isSigned.line isSigned.column

/-- The third form takes a method that begins like a page for the beginning of the file. -/
theorem matchFront?_gecko_of_beginsPage (isSigned : IsSigned method file line column)
    (page : BeginsPage method) :
    geckoPattern.matchFront? (signedText method file line column) =
      some (captureFile (Captures.none.set .method ⟨0, 0⟩) 0 (method ++ '@' :: file) line column) := by
  have regrouped : signedText method file line column =
      (method ++ '@' :: file) ++ placeUpTo [] line column := by
    simp [signedText]
  have inLine : ∀ char ∈ method ++ '@' :: file, isInLine char = true :=
    List.forall_mem_append.2 ⟨isSigned.method.inLine,
      List.forall_mem_cons.2 ⟨by decide, isSigned.file.inLine⟩⟩
  have begins : ∃ opening path, (method ++ '@' :: file) ++ placeUpTo [] line column =
      opening ++ path ∧ geckoFileStart.Spells 0 opening path := by
    obtain ⟨wanted, isOne, letters, folded⟩ := page
    obtain ⟨opening, path, rfl, isWord, -⟩ := List.map_eq_append_iff.1 folded.symm
    exact ⟨opening, path ++ '@' :: (file ++ placeUpTo [] line column), by simp,
      spells_geckoFileStart isOne isWord⟩
  rw [matchFront?_gecko isSigned.unspaced]
  refine runSparing_of_some
    (run_afterMethod_atFront (isSigned.not_mem_signedText (by decide)) ?_)
  rw [regrouped, run_geckoEnd_eq_run_either]
  exact run_either_of_some (run_pageEnd inLine isSigned.line isSigned.column begins)

end IsSigned

end Gecko

section Jsc

/-- The fifth form from the file on. -/
def jscEnd : Pattern :=
  seq (capture .file (seq (one fun char => !Text.isBlank char) anything))
    (seq (numberPart .line) openColumnEnd)

/-- A file is captured with its place, however it begins. -/
theorem run_jscEnd (isFile : IsSide file) (isLine : IsNumber line) (isColumn : IsNumber column) :
    jscEnd.run ⟨offset, file ++ placeUpTo [] line column, captures⟩ found =
      some (captureFile captures offset file line column) := by
  have silent : (one fun char => !Text.isBlank char).IsSilent := fun _ => rfl
  obtain ⟨first, others, rfl⟩ := List.exists_cons_of_ne_nil isFile.nonempty
  have visible : (!Text.isBlank first) = true := by
    rw [isFile.unspaced first List.mem_cons_self]
    rfl
  refine run_file silent .needed .unclosed isFile.inLine isLine isColumn
    ⟨[first], _, rfl, .one visible⟩ ?_
  intro opening rest cut spells
  obtain ⟨char, rfl, -⟩ := spells_one.1 spells
  obtain ⟨rfl, -⟩ := List.cons_eq_cons.1 cut
  exact ⟨others, rfl⟩

/-- The fifth form captures the parts of every frame with an at sign. -/
theorem matchFront?_jsc (isSigned : IsSigned method file line column) :
    jscPattern.matchFront? (signedText method file line column) =
      some (signedCaptures method file line column) := by
  have unfolded : jscPattern.matchFront? (signedText method file line column) =
      runGreedy Text.isBlank Captures.none
        (fun middle => (optional (seq (capture .method (greedy (· ≠ '@')))
          (seq (optional argumentList) (char '@')))).run middle fun after => jscEnd.run after found)
        0 (signedText method file line column) := rfl
  rw [unfolded, runGreedy_of_stop isSigned.unspaced]
  refine run_optional_of_some ?_
  have named : runGreedy (· ≠ '@') Captures.none
      (fun middle => (seq (optional argumentList) (char '@')).run (middle.capture .method 0)
        fun after => jscEnd.run after found)
      0 (method ++ '@' :: (file ++ placeUpTo [] line column)) =
      some (signedCaptures method file line column) := by
    refine runGreedy_eq_some ?_ ?_ ?_
    · intro char isIn
      refine decide_eq_true fun isSign => ?_
      subst isSign
      exact isSigned.method.not_mem (by decide) isIn
    · rintro (_ | ⟨first, more⟩) behind cut nonempty signless
      · exact absurd rfl nonempty
      · obtain ⟨rfl, -⟩ := List.cons_eq_cons.1 cut
        exact absurd rfl (of_decide_eq_true (signless '@' List.mem_cons_self))
    · have noParenthesis : '(' ∉ '@' :: (file ++ placeUpTo [] line column) :=
        List.not_mem_cons_of_ne_of_not_mem (by decide) (isSigned.not_mem_reference (by decide))
      have behindSign : jscEnd.run ⟨0 + method.length + 1, file ++ placeUpTo [] line column,
          Captures.none.set .method ⟨0, 0 + method.length⟩⟩ found =
          some (signedCaptures method file line column) := by
        rw [Nat.zero_add]
        exact run_jscEnd isSigned.file isSigned.line isSigned.column
      rw [run_seq]
      exact (run_argumentList noParenthesis).trans (run_char.trans behindSign)
  exact named

end Jsc

section Parts

/-- The parts of a frame with an at sign are captured as they are. -/
theorem ofCaptures_signedText (method file line column : List Char) :
    WrittenFrame.ofCaptures (signedText method file line column)
      (signedCaptures method file line column) = ⟨method, file, some line, some column⟩ := by
  have isMethod : Span.of ⟨0, method.length⟩ (signedText method file line column) = method := by
    simp [Span.of, signedText]
  have cut : signedText method file line column =
      (method ++ ['@']) ++ (file ++ placeUpTo [] line column) := by
    simp [signedText]
  have length : method.length + 1 = (method ++ ['@']).length := by simp
  rw [signedCaptures, ofCaptures_captureFile cut length]
  simp [Captures.text?, Captures.set, isMethod]

/-- Where a method begins like a page, the file is captured with the method in front of it. -/
theorem ofCaptures_signedText_of_page (method file line column : List Char) :
    WrittenFrame.ofCaptures (signedText method file line column)
      (captureFile (Captures.none.set .method ⟨0, 0⟩) 0 (method ++ '@' :: file) line column) =
        ⟨[], method ++ '@' :: file, some line, some column⟩ := by
  have cut : signedText method file line column =
      [] ++ ((method ++ '@' :: file) ++ placeUpTo [] line column) := by
    simp [signedText]
  have atFront : 0 = ([] : List Char).length := rfl
  rw [ofCaptures_captureFile cut atFront]
  simp [Captures.text?, Captures.set, Span.of]

/-- A file without a space tells no line in which it was evaluated. -/
theorem outOfNestedEval_of_not_mem {written : WrittenFrame} (noSpace : ' ' ∉ written.file) :
    written.outOfNestedEval = written := by
  unfold WrittenFrame.outOfNestedEval
  refine if_neg fun occurs => noSpace ?_
  exact (Text.occurs_iff.1 occurs).subset (by decide)

/-- The parts that are read of a frame with an at sign. -/
def signedParts (method file line column : List Char) : WrittenFrame :=
  if BeginsPage method then ⟨[], method ++ '@' :: file, some line, some column⟩
  else ⟨method, file, some line, some column⟩

/-- The third form reads a frame with an at sign if the method begins like a page, and the fifth one
reads the others if the third one does not. -/
theorem written_signedText (isSigned : IsSigned method file line column) :
    all.findSome? (·.written? (signedText method file line column)) =
      some (signedParts method file line column) := by
  have noSpace : ' ' ∉ signedText method file line column :=
    isSigned.not_mem_signedText (by decide)
  have noChrome := written?_eq_none .chrome (matchFront?_eq_none_of_not_mem_space noSpace)
  have noWinjs := written?_eq_none .winjs (matchFront?_eq_none_of_not_mem_space noSpace)
  have noNode := written?_eq_none .node (matchFront?_eq_none_of_not_mem_space noSpace)
  have parts := ofCaptures_signedText method file line column
  have inJsc := written?_eq_some .jsc (matchFront?_jsc isSigned) parts
  rw [all, List.findSome?_cons, noChrome, List.findSome?_cons, noWinjs, List.findSome?_cons]
  by_cases page : BeginsPage method
  · have matched := isSigned.matchFront?_gecko_of_beginsPage page
    have evalless : WrittenFrame.outOfNestedEval
        ⟨[], method ++ '@' :: file, some line, some column⟩ =
        ⟨[], method ++ '@' :: file, some line, some column⟩ := by
      apply outOfNestedEval_of_not_mem
      have noMethod : ' ' ∉ method := isSigned.method.not_mem (by decide)
      have noFile : ' ' ∉ file := isSigned.file.not_mem (by decide)
      simp [noMethod, noFile]
    rw [written?_eq_some .gecko matched (ofCaptures_signedText_of_page method file line column),
      resolveEval, evalless, signedParts, if_pos page]
  · have evalless : WrittenFrame.outOfNestedEval ⟨method, file, some line, some column⟩ =
        ⟨method, file, some line, some column⟩ :=
      outOfNestedEval_of_not_mem (isSigned.file.not_mem (by decide))
    rcases isSigned.matchFront?_gecko_atMost page with refused | matched
    · rw [written?_eq_none .gecko refused, List.findSome?_cons, noNode, List.findSome?_cons, inJsc,
        signedParts, if_neg page]
      rfl
    · rw [written?_eq_some .gecko matched parts, resolveEval, evalless, signedParts, if_neg page]

end Parts

end Grammar

namespace Frame

open Grammar

variable {method file : String} {line column : Nat}

/-- The frame of a method, an at sign and a file with its place. A method that begins like a page is
taken for the beginning of the file. -/
def signedFrame (method file : String) (line column : Nat) : Frame :=
  if BeginsPage method.toList then ⟨none, method ++ "@" ++ file, some line, some column⟩
  else ⟨some method, file, some line, some column⟩

/-- Written parts with the digits of both numbers are a frame with these numbers. -/
theorem frame_digits (name reference : List Char)
    (fewLine : (Number.digits line).length ≤ Number.digitLimit)
    (fewColumn : (Number.digits column).length ≤ Number.digitLimit) :
    WrittenFrame.frame ⟨name, reference, some (Number.digits line), some (Number.digits column)⟩ =
      .ok ⟨if name.isEmpty then none else some (String.ofList name), String.ofList reference,
        some line, some column⟩ := by
  rw [WrittenFrame.frame, number?_digits fewLine, number?_digits fewColumn]
  rfl

/-- A method keeps its name in front of an at sign, whatever the file is, unless it begins like a
page: then the line is read as a file without a method. -/
theorem ofLine_signedText (isMethod : IsSide method.toList) (isFile : IsSide file.toList)
    (fewLine : (Number.digits line).length ≤ Number.digitLimit)
    (fewColumn : (Number.digits column).length ≤ Number.digitLimit) :
    ofLine (signedText method.toList file.toList (Number.digits line) (Number.digits column)) =
      .ok (some (signedFrame method file line column)) := by
  have parts := written_signedText
    ⟨isMethod, isFile, isNumber_digits line, isNumber_digits column⟩
  rw [ofLine, readBy, parts, signedParts, signedFrame]
  by_cases page : BeginsPage method.toList
  · have joined : String.ofList (method.toList ++ '@' :: file.toList) = method ++ "@" ++ file := by
      simp [String.append_assoc]
    simp only [if_pos page, frame_digits _ _ fewLine fewColumn, joined]
    rfl
  · have isNamed : method.toList.isEmpty = false := List.isEmpty_eq_false_iff.2 isMethod.nonempty
    simp only [if_neg page, frame_digits _ _ fewLine fewColumn, isNamed, String.ofList_toList]
    rfl

/-- A method keeps its name in front of a bundle that itself looks like a place. -/
theorem ofLine_signedText_of_bundle :
    ofLine (signedText "Fi$le.run".toList "app.bundle:7:8".toList (Number.digits 12)
        (Number.digits 345)) =
      .ok (some ⟨some "Fi$le.run", "app.bundle:7:8", some 12, some 345⟩) := by
  have keepsName : signedFrame "Fi$le.run" "app.bundle:7:8" 12 345 =
      ⟨some "Fi$le.run", "app.bundle:7:8", some 12, some 345⟩ := if_neg (by decide)
  rw [← keepsName]
  exact ofLine_signedText (by decide) (by decide) (by decide) (by decide)

/-- A method that begins like a page loses its name to the file. -/
theorem ofLine_fileOpen :
    ofLine "fileOpen@https://example.com/app.js:3:7".toList =
      .ok (some ⟨none, "fileOpen@https://example.com/app.js", some 3, some 7⟩) := by
  decide +kernel

end Frame

end Retrace
