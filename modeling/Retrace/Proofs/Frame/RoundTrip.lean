import Retrace.Proofs.Frame.Lines
import Retrace.Proofs.Frame.Shapes
import Retrace.Proofs.Frame.Written

/-!
# Written frames are read back

A written call site is offered to the forms in turn. How its file begins decides whether the first
or the second form takes it; the third one never does, and the fourth one takes what is left.
Whichever it is captures the same parts: those that were written.
-/

namespace Retrace

/-- The name of a method that a call site can show. Spaces may stand anywhere in it. -/
structure IsMethodName (name : List Char) : Prop where
  nonempty : name ≠ []
  undivided : ∀ char ∈ ['(', '@', ':', '/', '\\'], char ∉ name
  spaced : ∀ char ∈ name, Text.isBlank char = true → char = ' '

/-- The reference to a file that a call site can show. It may have colons, digits and closing
parentheses anywhere. One scheme by itself would have the line taken for its path. -/
structure IsFileReference (file : List Char) : Prop where
  unspaced : ∀ char ∈ file, Text.isBlank char = false
  undivided : ∀ char ∈ ['(', '@'], char ∉ file
  noScheme : file.map Text.foldCase ≠ "ms-appx".toList

instance (name : List Char) : Decidable (IsMethodName name) :=
  decidable_of_iff
    (name ≠ [] ∧ (['(', '@', ':', '/', '\\'].all fun char => decide (char ∉ name)) = true ∧
      (name.all fun char => decide (Text.isBlank char = true → char = ' ')) = true)
    ⟨fun ⟨nonempty, undivided, spaced⟩ =>
      ⟨nonempty, Text.all_decide_iff.1 undivided, Text.all_decide_iff.1 spaced⟩,
    fun isName => ⟨isName.nonempty, Text.all_decide_iff.2 isName.undivided,
      Text.all_decide_iff.2 isName.spaced⟩⟩

instance (file : List Char) : Decidable (IsFileReference file) :=
  decidable_of_iff
    ((file.all fun char => decide (Text.isBlank char = false)) = true ∧
      (['(', '@'].all fun char => decide (char ∉ file)) = true ∧
      file.map Text.foldCase ≠ "ms-appx".toList)
    ⟨fun ⟨unspaced, undivided, noScheme⟩ =>
      ⟨Text.all_decide_iff.1 unspaced, Text.all_decide_iff.1 undivided, noScheme⟩,
    fun isReference => ⟨Text.all_decide_iff.2 isReference.unspaced,
      Text.all_decide_iff.2 isReference.undivided, isReference.noScheme⟩⟩

namespace Grammar

open Pattern

/-- The parts of a call site that can be shown. -/
structure IsCall (method file line column : List Char) : Prop where
  method : IsMethodName method
  file : IsFileReference file
  line : IsNumber line
  column : IsNumber column

/-- A written call site. -/
def callText (method file line column : List Char) : List Char :=
  Frame.opening.toList ++ (method ++ ' ' :: '(' :: (file ++ placeText line column))

/-- What is captured of a written call site. -/
def callCaptures (method file line column : List Char) : Captures :=
  captureFile (Captures.none.set .method ⟨7, 7 + method.length⟩) (7 + method.length + 2)
    file line column

variable {method file line column : List Char}

theorem length_opening : Frame.opening.toList.length = 7 := by decide

/-- A written call site is cut at its parenthesis. -/
theorem callText_eq_append : callText method file line column =
    (Frame.opening.toList ++ (method ++ [' '])) ++ '(' :: (file ++ placeText line column) := by
  simp [callText]

/-- A written call site ends in a closing parenthesis. -/
theorem exists_callText_eq_append (method file line column : List Char) :
    ∃ front, callText method file line column = front ++ [')'] := by
  refine ⟨Frame.opening.toList ++
    (method ++ ' ' :: '(' :: (file ++ ':' :: (line ++ ':' :: column))), ?_⟩
  simp [callText, placeText]

namespace IsCall

/-- Neither a method nor a file has a line feed. -/
theorem inLine (isCall : IsCall method file line column) :
    (∀ char ∈ method, isInLine char = true) ∧ ∀ char ∈ file, isInLine char = true := by
  constructor
  · intro char isIn
    refine decide_eq_true fun isFeed => ?_
    subst isFeed
    exact absurd (isCall.method.spaced '\n' isIn (by decide)) (by decide)
  · exact inLine_of_unspaced isCall.file.unspaced

/-- Behind the parenthesis there is neither another one, nor an at sign, nor a space. -/
theorem not_mem_reference (isCall : IsCall method file line column) :
    ∀ char ∈ ['(', '@', ' '], char ∉ file ++ placeText line column := by
  have apart : ∀ char ∈ ['(', '@', ' '], char ∈ [':', '(', ')', '@', '[', '\\', ' ', '\n'] ∧
      char ≠ ':' ∧ char ≠ ')' := Text.forall_mem_of_all (by decide)
  intro char isOne
  obtain ⟨divides, noColon, noParenthesis⟩ := apart char isOne
  have noFile : char ∉ file := by
    simp only [List.mem_cons, List.not_mem_nil, or_false] at isOne
    rcases isOne with rfl | rfl | rfl
    · exact isCall.file.undivided '(' (by decide)
    · exact isCall.file.undivided '@' (by decide)
    · exact Text.not_mem_of_unspaced isCall.file.unspaced (by decide)
  have noLine := isCall.line.not_mem divides
  have noColumn := isCall.column.not_mem divides
  simp [placeText, noFile, noLine, noColumn, noColon, noParenthesis]

/-- In front of the parenthesis there is no character that divides a call site. -/
theorem not_mem_name (isCall : IsCall method file line column) :
    ∀ char ∈ ['(', '@', ':'], char ∉ Frame.opening.toList ++ (method ++ [' ']) := by
  have divides : ∀ char ∈ ['(', '@', ':'], char ∈ ['(', '@', ':', '/', '\\'] ∧
      char ∉ Frame.opening.toList ∧ char ∉ [' '] := Text.forall_mem_of_all (by decide)
  intro char isOne
  obtain ⟨divides, noIndent, noSpace⟩ := divides char isOne
  rw [List.mem_append, List.mem_append, not_or, not_or]
  exact ⟨noIndent, isCall.method.undivided char divides, noSpace⟩

/-- The only parenthesis that opens is the one behind the method. -/
theorem split_at_parenthesis (isCall : IsCall method file line column) {front behind : List Char}
    (cut : callText method file line column = front ++ '(' :: behind) :
    front.length = 7 + method.length + 1 ∧ behind = file ++ placeText line column := by
  rw [callText_eq_append] at cut
  obtain ⟨rfl, -, rfl⟩ := (List.append_cons_inj_of_notMem (isCall.not_mem_name '(' (by decide))
    (isCall.not_mem_reference '(' (by decide))).1 cut
  refine ⟨?_, rfl⟩
  rw [List.length_append, List.length_append, length_opening, List.length_singleton, Nat.add_assoc]

end IsCall

/-- The whole text matches as the parts of a form do in turn. -/
theorem matchFront?_eq_some {pattern : Pattern} {text : List Char} {captures : Captures}
    (matched : pattern.run ⟨0, text, Captures.none⟩ found = some captures) :
    pattern.matchFront? text = some captures :=
  matched

theorem matchFront?_eq_none {pattern : Pattern} {text : List Char}
    (spellsNone : ∀ taken rest, text = taken ++ rest → ¬ pattern.Spells 0 taken rest) :
    pattern.matchFront? text = none := by
  rw [← Option.not_isSome_iff_eq_none, matchFront?_isSome_iff]
  rintro ⟨taken, rest, cut, spells⟩
  exact spellsNone taken rest cut spells

section Chrome

/-- The reference begins as files of the first form do. -/
def BeginsChrome (offset : Nat) (reference : List Char) : Prop :=
  ∃ opening rest, reference = opening ++ rest ∧ chromeFileStart.Spells offset opening rest

/-- The first form reads a call site whose file begins as it asks, whatever else is in the file. -/
theorem matchFront?_chrome (noParenthesis : '(' ∉ method)
    (methodInLine : ∀ char ∈ method, isInLine char = true)
    (fileInLine : ∀ char ∈ file, isInLine char = true) (isLine : IsNumber line)
    (isColumn : IsNumber column)
    (begins : BeginsChrome (7 + method.length + 2) (file ++ placeText line column)) :
    chromePattern.matchFront? (callText method file line column) =
      some (callCaptures method file line column) := by
  obtain ⟨digit, others, rfl⟩ := List.exists_cons_of_ne_nil isLine.nonempty
  have isDigit := isLine.digits digit List.mem_cons_self
  have silent : chromeFileStart.IsSilent := by
    intro part
    simp [chromeFileStart, anyOf, httpScheme, Pattern.optional, char, setsPart]
  apply matchFront?_eq_some
  refine run_atKeyword.trans ?_
  refine run_methodBeforeParenthesis noParenthesis methodInLine ?_
  refine run_file silent .wanted .closed fileInLine isLine isColumn begins ?_
  intro opening rest cut spells
  exact inside_of_spells_chromeFileStart isDigit cut.symm spells

/-- The first form does not read a call site whose file begins in another way. -/
theorem matchFront?_chrome_eq_none (isCall : IsCall method file line column)
    (begins : ¬ BeginsChrome (7 + method.length + 2) (file ++ placeText line column)) :
    chromePattern.matchFront? (callText method file line column) = none := by
  apply matchFront?_eq_none
  intro taken rest cut spells
  obtain ⟨keyword, _, rfl, -, behind⟩ := spells_all_cons.1 spells
  obtain ⟨name, _, rfl, -, behind⟩ := spells_all_cons.1 behind
  obtain ⟨space, _, rfl, -, behind⟩ := spells_all_cons.1 behind
  obtain ⟨_, _, rfl, parenthesis, behind⟩ := spells_all_cons.1 behind
  obtain rfl := spells_char.1 parenthesis
  obtain ⟨_, others, rfl, captured, -⟩ := spells_all_cons.1 behind
  obtain ⟨opening, path, rfl, start, -⟩ := spells_all_cons.1 (spells_capture.1 captured)
  have regrouped : callText method file line column =
      (keyword ++ name ++ space) ++ '(' :: (opening ++ (path ++ others ++ rest)) := by
    rw [cut]
    simp
  obtain ⟨length, isReference⟩ := isCall.split_at_parenthesis regrouped
  refine begins ⟨opening, _, isReference.symm, ?_⟩
  have offset : 0 + keyword.length + name.length + space.length + ['('].length =
      7 + method.length + 2 := by
    simp at length ⊢
    omega
  rw [← offset]
  simpa using start

end Chrome

section Winjs

/-- The reference begins with a scheme of the second form. -/
def BeginsWinjs (offset : Nat) (reference : List Char) : Prop :=
  ∃ scheme rest, reference = (scheme ++ [':']) ++ rest ∧
    winjsScheme.Spells offset scheme (':' :: rest)

/-- The second form reads a call site whose file has one of its schemes, if the first one does not
read it. -/
theorem matchFront?_winjs (isCall : IsCall method file line column)
    (noChrome : ¬ BeginsChrome (7 + method.length + 2) (file ++ placeText line column))
    (begins : BeginsWinjs (7 + method.length + 2) (file ++ placeText line column)) :
    winjsPattern.matchFront? (callText method file line column) =
      some (callCaptures method file line column) := by
  obtain ⟨digit, others, rfl⟩ := List.exists_cons_of_ne_nil isCall.line.nonempty
  have silent : (seq winjsScheme (char ':')).IsSilent := by
    intro part
    simp [winjsScheme, anyOf, httpScheme, Pattern.optional, char, setsPart]
  have split {opening rest : List Char}
      (spells : (seq winjsScheme (char ':')).Spells (7 + method.length + 2) opening rest) :
      ∃ scheme, opening = scheme ++ [':'] ∧
        winjsScheme.Spells (7 + method.length + 2) scheme (':' :: rest) := by
    obtain ⟨scheme, _, rfl, spells, colon⟩ := spells_seq.1 spells
    obtain rfl := spells_char.1 colon
    exact ⟨scheme, rfl, spells⟩
  apply matchFront?_eq_some
  refine run_atKeyword.trans ?_
  have noSpace := isCall.not_mem_reference ' ' (by decide)
  refine run_method .empty isCall.method.nonempty isCall.inLine.1 noSpace (fun _ => rfl) ?_
  refine run_optional_of_some (run_char.trans ?_)
  refine run_file silent .needed .closed isCall.inLine.2 isCall.line isCall.column ?_ ?_
  · obtain ⟨scheme, rest, cut, spells⟩ := begins
    exact ⟨scheme ++ [':'], rest, cut, .seq spells (spells_char.2 rfl)⟩
  · intro opening rest cut spells
    obtain ⟨scheme, rfl, inScheme⟩ := split spells
    rcases inside_of_spells_winjsScheme cut.symm inScheme with inside | rfl
    · exact inside
    · rcases chromeFileStart_of_winjsScheme inScheme with bare | start
      · exact absurd bare isCall.file.noScheme
      · rw [List.append_assoc] at cut
        exact absurd ⟨_, _, cut, start⟩ noChrome

/-- The second form does not read a call site whose file has none of its schemes. -/
theorem matchFront?_winjs_eq_none (isCall : IsCall method file line column)
    (begins : ¬ BeginsWinjs (7 + method.length + 2) (file ++ placeText line column)) :
    winjsPattern.matchFront? (callText method file line column) = none := by
  apply matchFront?_eq_none
  intro taken rest cut spells
  obtain ⟨keyword, _, rfl, at', behind⟩ := spells_all_cons.1 spells
  obtain ⟨name, _, rfl, named, behind⟩ := spells_all_cons.1 behind
  obtain ⟨opened, _, rfl, parenthesis, behind⟩ := spells_all_cons.1 behind
  obtain ⟨_, others, rfl, captured, -⟩ := spells_all_cons.1 behind
  obtain ⟨scheme, _, rfl, inScheme, behind⟩ := spells_all_cons.1 (spells_capture.1 captured)
  obtain ⟨_, path, rfl, colon, -⟩ := spells_all_cons.1 behind
  obtain rfl := spells_char.1 colon
  rcases spells_optional.1 parenthesis with isOpen | rfl
  · obtain rfl := spells_char.1 isOpen
    have regrouped : callText method file line column =
        (keyword ++ name) ++ '(' :: ((scheme ++ [':']) ++ (path ++ others ++ rest)) := by
      rw [cut]
      simp
    obtain ⟨length, isReference⟩ := isCall.split_at_parenthesis regrouped
    refine begins ⟨scheme, _, isReference.symm, ?_⟩
    have offset : 0 + keyword.length + name.length + ['('].length = 7 + method.length + 2 := by
      simp at length ⊢
      omega
    rw [← offset]
    simpa [winjsScheme] using inScheme
  · -- The scheme stands behind a space, so the parenthesis would have to be in it.
    obtain ⟨front, isFront⟩ : ∃ front, keyword ++ name = front ++ [' '] := by
      obtain ⟨blanks, letters, rfl, -, -⟩ := exists_of_spells_atKeyword at'
      rcases spells_optional.1 named with named | rfl
      · obtain ⟨name, _, rfl, -, space⟩ := spells_all_cons.1 named
        obtain rfl := spells_char.1 space
        exact ⟨blanks ++ (letters ++ [' ']) ++ name, by simp⟩
      · exact ⟨blanks ++ letters, by simp⟩
    have regrouped : (front ++ [' ']) ++ (scheme ++ ':' :: (path ++ others ++ rest)) =
        (Frame.opening.toList ++ (method ++ [' '])) ++ '(' :: (file ++ placeText line column) := by
      rw [← callText_eq_append, cut, ← isFront]
      simp
    have noSpace : ' ' ∉ '(' :: (file ++ placeText line column) :=
      List.not_mem_cons_of_ne_of_not_mem (by decide) (isCall.not_mem_reference ' ' (by decide))
    have inside := Text.mem_between regrouped (isCall.not_mem_name ':' (by decide)) noSpace
      (by decide)
    have only : winjsScheme.ConsumesOnly (· ≠ '(') := by
      simp (disch := decide) [winjsScheme, httpScheme, consumesOnly_word]
    exact inScheme.all only '(' inside rfl

end Winjs

section Gecko

/-- The third form reads no call site: there is no at sign, and the line neither begins nor ends as
a file of the form. -/
theorem matchFront?_gecko_eq_none (isCall : IsCall method file line column) :
    geckoPattern.matchFront? (callText method file line column) = none := by
  apply matchFront?_eq_none
  intro taken rest cut spells
  obtain ⟨front, behind, same, starts, known⟩ := shape_of_spells_gecko spells
  rw [← cut] at same
  rcases starts with rfl | ⟨before, rfl⟩
  · rw [List.nil_append] at same
    rcases known with ⟨opening, path, rfl, start⟩ | ⟨name, bundle, place, rfl, -, isBundle, isPlace⟩
    · exact not_spells_geckoFileStart (by decide) same.symm start
    · obtain ⟨numbers, isPlace⟩ := isPlace
      obtain ⟨front, closed⟩ := exists_callText_eq_append method file line column
      rw [closed] at same
      by_cases none : place = []
      · subst none
        rw [List.append_nil] at same
        have nonempty : bundle ≠ [] := by
          rintro rfl
          cases isBundle
        exact Text.not_mem_of_map_foldCase isBundle (by decide) (by decide)
          (Text.mem_of_append_singleton same nonempty)
      · rw [← List.append_assoc] at same
        exact isPlace.not_mem (by decide) (Text.mem_of_append_singleton same none)
  · have noSign : '@' ∉ callText method file line column := by
      rw [callText_eq_append, List.mem_append, not_or]
      exact ⟨isCall.not_mem_name '@' (by decide), List.not_mem_cons_of_ne_of_not_mem (by decide)
        (isCall.not_mem_reference '@' (by decide))⟩
    rw [same] at noSign
    simp at noSign

end Gecko

section Node

/-- What the fourth form looks for behind a method that has another name is left out without a space
and an opening bracket. -/
theorem run_otherName {offset : Nat} {text : List Char} {captures : Captures}
    {next : Continuation Captures} (noBracket : ∀ more, text ≠ ' ' :: '[' :: more) :
    (Pattern.optional (Pattern.all [word " [as ", greedyOne fun char => !Text.isBlank char,
      char ']'])).run ⟨offset, text, captures⟩ next = next ⟨offset, text, captures⟩ := by
  apply run_optional_of_none
  apply run_eq_none
  rintro taken rest rfl spells
  obtain ⟨mark, more, rfl, written, -⟩ := spells_all_cons.1 spells
  have folded : mark.map Text.foldCase = [' ', '['] ++ "as ".toList := spells_word.1 written
  obtain ⟨front, others, rfl, isFront, -⟩ := List.map_eq_append_iff.1 folded
  obtain ⟨space, _, rfl, isSpace, isRest⟩ := List.map_eq_cons_iff.1 isFront
  obtain ⟨bracket, rfl, isBracket⟩ := List.map_eq_singleton_iff.1 isRest
  obtain rfl := Text.eq_of_foldCase isSpace (by decide)
  obtain rfl := Text.eq_of_foldCase isBracket (by decide)
  exact noBracket (others ++ more ++ rest) (by simp)

/-- The fourth form reads every call site. -/
theorem matchFront?_node (isCall : IsCall method file line column) :
    nodePattern.matchFront? (callText method file line column) =
      some (callCaptures method file line column) := by
  have accepted : ∀ char ∈ method, (char ≠ '\\' && char ≠ '/') = true := by
    intro char isIn
    have noSlash (slash : Char) (divides : slash ∈ ['(', '@', ':', '/', '\\']) : char ≠ slash :=
      fun same => isCall.method.undivided slash divides (same ▸ isIn)
    simp [noSlash '\\' (by decide), noSlash '/' (by decide)]
  have noSpace := isCall.not_mem_reference ' ' (by decide)
  apply matchFront?_eq_some
  refine run_atKeyword.trans ?_
  refine run_method _ isCall.method.nonempty accepted noSpace run_otherName ?_
  refine run_optional_of_some (run_char.trans ?_)
  have silent : Pattern.empty.IsSilent := fun _ => rfl
  refine run_file silent .needed .closed isCall.inLine.2 isCall.line isCall.column ⟨[], _, rfl, .empty⟩ ?_
  intro opening rest _ spells
  obtain rfl := spells_empty.1 spells
  exact List.nil_prefix

end Node

section Parts

/-- The parts of a written call site are captured as they are. -/
theorem ofCaptures_callText (method file line column : List Char) :
    WrittenFrame.ofCaptures (callText method file line column)
      (callCaptures method file line column) = ⟨method, file, some line, some column⟩ := by
  have isMethod : Span.of ⟨7, 7 + method.length⟩ (callText method file line column) = method :=
    Span.of_eq rfl length_opening.symm (by rw [length_opening])
  have cut : callText method file line column = (Frame.opening.toList ++ method ++ [' ', '(']) ++
      (file ++ placeText line column) := by
    simp [callText]
  have length : (Frame.opening.toList ++ method ++ [' ', '(']).length = 7 + method.length + 2 := by
    rw [List.length_append, List.length_append, length_opening]
    rfl
  rw [callCaptures, ofCaptures_captureFile cut length.symm]
  simp [Captures.text?, Captures.set, isMethod]

/-- A file without a parenthesis tells no place in which it was evaluated. -/
theorem outOfEval_of_not_mem {written : WrittenFrame} (noParenthesis : '(' ∉ written.file) :
    written.outOfEval = written := by
  have nothing : chromeOriginPattern.search? written.file = none := by
    rw [Option.eq_none_iff_forall_ne_some]
    intro captures found
    obtain ⟨front, rest, after, cut, isAfter, -⟩ := exists_of_searchFrom? found
    obtain ⟨taken, spelled⟩ := spelled_of_mem_outcomes isAfter
    obtain ⟨_, more, rfl, parenthesis, -⟩ := spells_all_cons.1 spelled.spells
    obtain rfl := spells_char.1 parenthesis
    have same : rest = ['('] ++ more ++ after.rest := spelled.rest
    rw [cut, same] at noParenthesis
    simp at noParenthesis
  unfold WrittenFrame.outOfEval
  rw [nothing]
  split <;> rfl

/-- Whichever form takes a written call site, its parts are read as they were written. -/
theorem written_callText (isCall : IsCall method file line column) :
    all.findSome? (·.written? (callText method file line column)) =
      some ⟨method, file, some line, some column⟩ := by
  have evalless : WrittenFrame.outOfEval ⟨method, file, some line, some column⟩ =
      ⟨method, file, some line, some column⟩ :=
    outOfEval_of_not_mem (isCall.file.undivided '(' (by decide))
  have parts := ofCaptures_callText method file line column
  by_cases chrome : BeginsChrome (7 + method.length + 2) (file ++ placeText line column)
  · have matched := matchFront?_chrome (isCall.method.undivided '(' (by decide)) isCall.inLine.1
      isCall.inLine.2 isCall.line isCall.column chrome
    have reads := written?_eq_some .chrome matched parts
    rw [all, List.findSome?_cons, reads, resolveEval, evalless]
  · have noChrome := written?_eq_none .chrome (matchFront?_chrome_eq_none isCall chrome)
    by_cases winjs : BeginsWinjs (7 + method.length + 2) (file ++ placeText line column)
    · have reads := written?_eq_some .winjs (matchFront?_winjs isCall chrome winjs) parts
      rw [all, List.findSome?_cons, noChrome, List.findSome?_cons, reads]
      rfl
    · have noWinjs := written?_eq_none .winjs (matchFront?_winjs_eq_none isCall winjs)
      have noGecko := written?_eq_none .gecko (matchFront?_gecko_eq_none isCall)
      have reads := written?_eq_some .node (matchFront?_node isCall) parts
      rw [all, List.findSome?_cons, noChrome, List.findSome?_cons, noWinjs, List.findSome?_cons,
        noGecko, List.findSome?_cons, reads]
      rfl

end Parts

end Grammar

namespace Frame

open Grammar

variable {method file : String} {line column : Nat}

/-- The decimal digits of a number are the digits of a place. -/
theorem isNumber_digits (number : Nat) : IsNumber (Number.digits number) where
  nonempty := Number.digits_ne_nil number
  digits _ isIn := Text.isDigit_of_ascii (Number.isDigit_of_mem_digits isIn)

/-- A place that can be written is written as a call site. -/
theorem exists_lineText_eq_callText (file : String)
    (fewLine : (Number.digits line).length ≤ Number.digitLimit)
    (fewColumn : (Number.digits column).length ≤ Number.digitLimit) (named : method ≠ "") :
    ∃ text, lineText (some method) file (some line) (some column) none = .ok text ∧
      text.toList = callText method.toList file.toList (Number.digits line)
        (Number.digits column) := by
  have written {number : Nat} (few : (Number.digits number).length ≤ Number.digitLimit) :
      numberText (some (number : Int)) = .ok (String.ofList (Number.digits number)) := by
    have small : number < Nat.pow 10 Number.digitLimit :=
      (Number.length_digits_le_iff (by decide)).1 few
    have writable : Number.Writable number := small
    rw [numberText, Number.writeInteger_of_writable writable, Number.decimal, if_neg (by omega),
      Int.natAbs_natCast]
    rfl
  refine ⟨indent ++ "at " ++ method ++ (" (" ++ file ++ ":" ++
    String.ofList (Number.digits line) ++ ":" ++ String.ofList (Number.digits column) ++ ")") ++ "",
    ?_, ?_⟩
  · have isNamed : Frame.named (some method) unknownMethod = method :=
      if_neg fun isEmpty => named (String.isEmpty_iff.1 isEmpty)
    rw [lineText, locationText, written fewLine, written fewColumn, isNamed]
    rfl
  · have indents : indent.toList ++ "at ".toList = opening.toList := by decide
    have opened : [' ', '('] = " (".toList := by decide
    have colon : [':'] = ":".toList := by decide
    have closed : [')'] = ")".toList := by decide
    simp [callText, placeText, ← opened, ← colon, ← closed, ← indents]

/-- As many digits as a number may have are read as their value. -/
theorem number?_of_length_le {digits : List Char} (few : digits.length ≤ Number.digitLimit) :
    WrittenFrame.number? (some digits) = .ok (some (Number.digitsValue digits : Int)) := by
  rw [WrittenFrame.number?, Number.readDigits, if_pos few]
  rfl

/-- Digits of a number are read as the number. -/
theorem number?_digits {number : Nat}
    (few : (Number.digits number).length ≤ Number.digitLimit) :
    WrittenFrame.number? (some (Number.digits number)) = .ok (some (number : Int)) := by
  rw [number?_of_length_le few, Number.digitsValue_digits]

/-- What is written for a call site is read back as the same frame: the method, the file and both
numbers, whichever form takes the line and whatever colons and digits the file has. -/
theorem ofLine_lineText (isName : IsMethodName method.toList)
    (isReference : IsFileReference file.toList)
    (fewLine : (Number.digits line).length ≤ Number.digitLimit)
    (fewColumn : (Number.digits column).length ≤ Number.digitLimit) :
    ∃ text, lineText (some method) file (some line) (some column) none = .ok text ∧
      ofLine text.toList = .ok (some ⟨some method, file, some line, some column⟩) := by
  have named : method ≠ "" := by
    rintro rfl
    exact isName.nonempty rfl
  obtain ⟨text, written, isCallText⟩ :=
    exists_lineText_eq_callText file fewLine fewColumn named
  refine ⟨text, written, ?_⟩
  have parts := written_callText
    ⟨isName, isReference, isNumber_digits line, isNumber_digits column⟩
  rw [ofLine, readBy, isCallText, parts]
  have isNamed : method.toList.isEmpty = false := List.isEmpty_eq_false_iff.2 isName.nonempty
  simp [WrittenFrame.frame, number?_digits fewLine, number?_digits fewColumn, isNamed, bind,
    Except.bind, pure, Except.pure, Except.map]

/-- A method with spaces and a file that itself looks like a place are read back. -/
theorem ofLine_lineText_of_placeInFile :
    ∃ text, lineText (some "[object Object] run [as x]") "c:7:8)" (some (12 : Nat))
        (some (345 : Nat)) none = .ok text ∧
      ofLine text.toList =
        .ok (some ⟨some "[object Object] run [as x]", "c:7:8)", some (12 : Nat), some (345 : Nat)⟩) :=
  ofLine_lineText (by decide) (by decide) (by decide) (by decide)

end Frame

end Retrace
