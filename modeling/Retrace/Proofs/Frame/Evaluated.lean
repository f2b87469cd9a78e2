import Retrace.Proofs.Frame.Anonymous

/-!
# Frames of evaluated code

A frame of evaluated code names no file of its own but says where the code was made. In the first
form that is a call inside parentheses, which is evaluated code in turn or a file with its place, so
that the place is found behind the innermost parenthesis. In the third form it is a file with the
lines at which code was made, the outermost one first. However deep the code is nested, the file that
is really there is read.
-/

namespace Retrace

namespace Grammar

open Pattern

section Nested

/-- What a call of evaluated code says of where the code was made, through functions that are
evaluated code themselves. -/
def evaluatedText (place : List Char) : List (List Char) → List Char
  | [] => place
  | name :: names =>
    "eval at ".toList ++ (name ++ ' ' :: '(' :: (evaluatedText place names ++ [')']))

/-- The mark of evaluated code, which has no file. -/
def evaluatedMark : List Char := ", <anonymous>".toList

/-- A name that can stand in front of a parenthesis. -/
structure IsCallee (name : List Char) : Prop where
  noParenthesis : '(' ∉ name
  inLine : ∀ char ∈ name, isInLine char = true

instance (name : List Char) : Decidable (IsCallee name) :=
  decidable_of_iff ('(' ∉ name ∧ (name.all fun char => decide (isInLine char = true)) = true)
    ⟨fun ⟨noParenthesis, inLine⟩ => ⟨noParenthesis, Text.all_decide_iff.1 inLine⟩,
    fun isCallee => ⟨isCallee.noParenthesis, Text.all_decide_iff.2 isCallee.inLine⟩⟩

/-- What stands in front of the innermost place. -/
def evaluations (names : List (List Char)) : List Char :=
  names.flatMap fun name => "eval at ".toList ++ (name ++ [' ', '('])

/-- The parentheses of all evaluations close behind the innermost place. -/
theorem evaluatedText_eq_append (place : List Char) (names : List (List Char)) :
    evaluatedText place names = evaluations names ++ (place ++ List.replicate names.length ')') := by
  induction names with
  | nil => exact (List.append_nil place).symm
  | cons name names inductionHypothesis =>
    have nested : evaluatedText place (name :: names) =
        "eval at ".toList ++ (name ++ ' ' :: '(' :: (evaluatedText place names ++ [')'])) := rfl
    rw [nested, inductionHypothesis, List.length_cons, List.replicate_succ']
    simp [evaluations]

variable {file line column name text : List Char} {names : List (List Char)} {offset : Nat}
  {captures : Captures}

/-- The pattern of a place begins with its parenthesis. -/
theorem run_chromeOrigin_of_ne {first : Char} (other : first ≠ '(') :
    chromeOriginPattern.run ⟨offset, first :: text, captures⟩ found = none := by
  rw [chromeOriginPattern, run_all_cons]
  exact run_char_of_head (by simpa using other)

/-- There is no place where the first word behind a parenthesis has no colon. -/
theorem run_chromeOrigin_of_word {word : List Char} (noColon : ':' ∉ word) :
    chromeOriginPattern.run ⟨offset, '(' :: (word ++ ' ' :: text), captures⟩ found = none := by
  refine run_eq_none fun taken rest cut spells => ?_
  obtain ⟨_, _, rfl, parenthesis, behind⟩ := spells_all_cons.1 spells
  obtain rfl := spells_char.1 parenthesis
  obtain ⟨path, _, rfl, captured, behind⟩ := spells_all_cons.1 behind
  obtain ⟨_, left, rfl, number, -⟩ := spells_all_cons.1 behind
  obtain ⟨digits, rfl, -⟩ := spells_numberPart.1 number
  have visible := spells_greedy.1 (spells_capture.1 captured)
  have noSpace : ' ' ∉ path ++ [':'] := by
    rw [List.mem_append, not_or]
    exact ⟨fun isIn => absurd (visible ' ' isIn) (by decide), by decide⟩
  have begins : path ++ [':'] <+: word ++ ' ' :: text := by
    rw [(List.cons_eq_cons.1 cut).2]
    exact ⟨digits ++ (left ++ rest), by simp⟩
  have inside := Text.prefix_of_prefix_separated noSpace begins
  exact noColon (inside.subset (by simp))

/-- Both numbers of a place and the parenthesis that closes it. -/
def closedPlace : Pattern :=
  seq (numberPart .line) (seq (numberPart .column) (char ')'))

/-- A place has two colons. -/
theorem run_closedPlace_eq_none (few : text.count ':' ≤ 1) :
    closedPlace.run ⟨offset, text, captures⟩ found = none := by
  refine run_eq_none fun taken rest cut spells => ?_
  obtain ⟨_, _, rfl, first, behind⟩ := spells_seq.1 spells
  obtain ⟨_, closing, rfl, second, -⟩ := spells_seq.1 behind
  obtain ⟨digits, rfl, -⟩ := spells_numberPart.1 first
  obtain ⟨others, rfl, -⟩ := spells_numberPart.1 second
  rw [cut] at few
  simp only [List.cons_append, List.append_assoc, List.count_cons_self, List.count_append] at few
  omega

/-- Both numbers are captured in front of a parenthesis, whatever stands behind it. -/
theorem run_closedPlace (isLine : IsNumber line) (isColumn : IsNumber column) :
    closedPlace.run ⟨offset, placeUpTo (')' :: text) line column, captures⟩ found =
      some ((captures.set .line ⟨offset + 1, offset + 1 + line.length⟩).set .column
        ⟨offset + line.length + 2, offset + line.length + 2 + column.length⟩) := by
  rw [closedPlace, run_seq]
  refine run_numberPart isLine (by simp [Text.isDigit_eq_false_of_mem]) ?_
  have moved : offset + 1 + line.length + 1 = offset + line.length + 2 := by omega
  rw [run_seq]
  refine run_numberPart isColumn (by simp [Text.isDigit_eq_false_of_mem]) ?_
  rw [run_char, moved]
  rfl

/-- A file with its place is found behind its parenthesis, however many colons the file has: no more
than two of them are left behind it. -/
theorem run_chromeOrigin (unspaced : ∀ char ∈ file, Text.isBlank char = false)
    (isLine : IsNumber line) (isColumn : IsNumber column) (noColon : ':' ∉ text) :
    chromeOriginPattern.run ⟨offset, '(' :: (file ++ placeUpTo (')' :: text) line column), captures⟩
        found =
      some (captureFile captures (offset + 1) file line column) := by
  have unfolded : chromeOriginPattern.run
        ⟨offset, '(' :: (file ++ placeUpTo (')' :: text) line column), captures⟩ found =
      (char '(').run ⟨offset, '(' :: (file ++ placeUpTo (')' :: text) line column), captures⟩
        fun middle => runGreedy (fun char => !Text.isBlank char) middle.captures
          (fun after => closedPlace.run (after.capture .file middle.offset) found)
          middle.offset middle.rest := rfl
  rw [unfolded, run_char]
  refine runGreedy_eq_some (fun char isIn => by rw [unspaced char isIn]; rfl) ?_ ?_
  · -- A longer file would take at least the first of the two colons behind it.
    intro more behind cut nonempty _
    apply run_closedPlace_eq_none
    obtain ⟨first, more, rfl⟩ := List.exists_cons_of_ne_nil nonempty
    have left : line ++ ':' :: (column ++ ')' :: text) = more ++ behind :=
      (List.cons_eq_cons.1 cut).2
    have colons := congrArg (List.count ':') left
    have noLine : line.count ':' = 0 := List.count_eq_zero.2 (isLine.not_mem (by decide))
    have noColumn : column.count ':' = 0 := List.count_eq_zero.2 (isColumn.not_mem (by decide))
    have noOther : text.count ':' = 0 := List.count_eq_zero.2 noColon
    simp only [List.count_append, List.count_cons_self, noLine, noColumn, noOther,
      List.count_cons_of_ne (show ')' ≠ ':' by decide)] at colons
    dsimp only
    omega
  · exact run_closedPlace isLine isColumn

/-- The search for a place passes what stands in front of a parenthesis. -/
theorem searchFrom?_evaluation (noParenthesis : '(' ∉ name) :
    chromeOriginPattern.searchFrom? offset ("eval at ".toList ++ (name ++ ' ' :: '(' :: text)) =
      chromeOriginPattern.searchFrom? (offset + name.length + 9) ('(' :: text) := by
  have regrouped : "eval at ".toList ++ (name ++ ' ' :: '(' :: text) =
      ("eval at ".toList ++ (name ++ [' '])) ++ '(' :: text := by simp
  have passed : offset + ("eval at ".toList ++ (name ++ [' '])).length =
      offset + name.length + 9 := by
    simp
    omega
  rw [regrouped, ← passed]
  refine searchFrom?_append fun front char late cut => run_chromeOrigin_of_ne ?_
  rintro rfl
  have isIn : '(' ∈ "eval at ".toList ++ (name ++ [' ']) := by
    rw [cut]
    simp
  simp [noParenthesis] at isIn

/-- The search finds the place behind the innermost parenthesis. -/
theorem searchFrom?_evaluations (unspaced : ∀ char ∈ file, Text.isBlank char = false)
    (isLine : IsNumber line) (isColumn : IsNumber column) (noColon : ':' ∉ text)
    (nonempty : names ≠ []) (noParenthesis : ∀ name ∈ names, '(' ∉ name) :
    chromeOriginPattern.searchFrom? offset
        (evaluations names ++ (file ++ placeUpTo (')' :: text) line column)) =
      some (captureFile Captures.none (offset + (evaluations names).length) file line column) := by
  induction names generalizing offset with
  | nil => exact absurd rfl nonempty
  | cons name names inductionHypothesis =>
    obtain ⟨first, others⟩ := List.forall_mem_cons.1 noParenthesis
    have counted : offset + (evaluations (name :: names)).length =
        offset + name.length + 9 + 1 + (evaluations names).length := by
      simp [evaluations]
      omega
    have regrouped : evaluations (name :: names) ++ (file ++ placeUpTo (')' :: text) line column) =
        "eval at ".toList ++ (name ++ ' ' :: '(' ::
          (evaluations names ++ (file ++ placeUpTo (')' :: text) line column))) := by
      simp [evaluations]
    rw [regrouped, searchFrom?_evaluation first, counted]
    cases names with
    | nil => exact searchFrom?_of_some (run_chromeOrigin unspaced isLine isColumn noColon)
    | cons second names =>
      -- What stands behind this parenthesis is no place, but the word of the next evaluation.
      have word : ':' ∉ "eval".toList := by decide
      have inner : evaluations (second :: names) ++ (file ++ placeUpTo (')' :: text) line column) =
          "eval".toList ++ ' ' :: ("at ".toList ++ (second ++ ' ' :: '(' ::
            (evaluations names ++ (file ++ placeUpTo (')' :: text) line column)))) := by
        simp [evaluations]
      have refused : chromeOriginPattern.run ⟨offset + name.length + 9, '(' ::
          (evaluations (second :: names) ++ (file ++ placeUpTo (')' :: text) line column)),
          Captures.none⟩ found = none := by
        rw [inner]
        exact run_chromeOrigin_of_word word
      rw [searchFrom?_cons refused]
      exact inductionHypothesis (List.cons_ne_nil _ _) others

/-- The parts of a frame of evaluated code in the first form. -/
structure IsEvaluatedCall (method : List Char) (names : List (List Char))
    (file line column : List Char) : Prop where
  method : IsCallee method
  nested : names ≠ []
  callees : ∀ name ∈ names, IsCallee name
  unspaced : ∀ char ∈ file, Text.isBlank char = false
  line : IsNumber line
  column : IsNumber column

/-- What a frame of evaluated code says in the place of a file. -/
def evaluatedFile (names : List (List Char)) (file line column : List Char) : List Char :=
  evaluatedText (file ++ placeUpTo [] line column) names ++ evaluatedMark

namespace IsEvaluatedCall

variable {method : List Char}

/-- The innermost place is followed by the parentheses of all evaluations and the mark. -/
theorem exists_evaluatedFile_eq_append
    (isEvaluated : IsEvaluatedCall method names file line column) :
    ∃ text, ':' ∉ text ∧ (∀ char ∈ text, isInLine char = true) ∧
      evaluatedFile names file line column =
        evaluations names ++ (file ++ placeUpTo (')' :: text) line column) := by
  obtain ⟨name, names, rfl⟩ := List.exists_cons_of_ne_nil isEvaluated.nested
  have marked : ∀ char ∈ evaluatedMark, char ≠ ':' ∧ isInLine char = true :=
    Text.forall_mem_of_all (by decide)
  refine ⟨List.replicate names.length ')' ++ evaluatedMark, ?_, ?_, ?_⟩
  · rw [List.mem_append, not_or, List.mem_replicate]
    exact ⟨fun isParenthesis => absurd isParenthesis.2 (by decide),
      fun isIn => (marked ':' isIn).1 rfl⟩
  · rw [List.forall_mem_append]
    refine ⟨fun char isIn => ?_, fun char isIn => (marked char isIn).2⟩
    rw [List.eq_of_mem_replicate isIn]
    decide
  · rw [evaluatedFile, evaluatedText_eq_append]
    simp [placeUpTo, List.replicate_succ]

/-- What is said in the place of a file begins with the word of an evaluation. -/
theorem prefix_evaluatedFile (isEvaluated : IsEvaluatedCall method names file line column) :
    "eval".toList <+: evaluatedFile names file line column := by
  obtain ⟨text, -, -, cut⟩ := isEvaluated.exists_evaluatedFile_eq_append
  obtain ⟨name, names, rfl⟩ := List.exists_cons_of_ne_nil isEvaluated.nested
  have word : "eval".toList <+: evaluations (name :: names) :=
    ⟨" at ".toList ++ (name ++ ' ' :: '(' :: evaluations names), by simp [evaluations]⟩
  rw [cut]
  exact word.trans (List.prefix_append _ _)

/-- What is said in the place of a file has no line feed. -/
theorem inLine (isEvaluated : IsEvaluatedCall method names file line column) :
    ∀ char ∈ evaluatedFile names file line column, isInLine char = true := by
  obtain ⟨text, -, textInLine, cut⟩ := isEvaluated.exists_evaluatedFile_eq_append
  have evaluationsInLine : ∀ char ∈ evaluations names, isInLine char = true := by
    intro char isIn
    obtain ⟨name, isName, isIn⟩ := List.mem_flatMap.1 isIn
    have word : ∀ char ∈ "eval at ".toList, isInLine char = true :=
      Text.forall_mem_of_all (by decide)
    have opened : ∀ char ∈ [' ', '('], isInLine char = true := Text.forall_mem_of_all (by decide)
    rcases List.mem_append.1 isIn with isWord | isIn
    · exact word char isWord
    · rcases List.mem_append.1 isIn with inName | isOpened
      · exact (isEvaluated.callees name isName).inLine char inName
      · exact opened char isOpened
  rw [cut]
  simp only [placeUpTo, List.forall_mem_append, List.forall_mem_cons]
  exact ⟨evaluationsInLine, inLine_of_unspaced isEvaluated.unspaced, by decide,
    isEvaluated.line.inLine, by decide, isEvaluated.column.inLine, by decide,
    textInLine⟩

/-- A frame of evaluated code is moved to the innermost place. -/
theorem outOfEval_evaluatedFile (isEvaluated : IsEvaluatedCall method names file line column)
    (evalLine evalColumn : Option (List Char)) :
    WrittenFrame.outOfEval
        ⟨method, evaluatedFile names file line column, evalLine, evalColumn⟩ =
      ⟨method, file, some line, some column⟩ := by
  obtain ⟨text, noColon, -, cut⟩ := isEvaluated.exists_evaluatedFile_eq_append
  have found : chromeOriginPattern.search? (evaluatedFile names file line column) =
      some (captureFile Captures.none (0 + (evaluations names).length) file line column) := by
    rw [search?, cut]
    exact searchFrom?_evaluations isEvaluated.unspaced isEvaluated.line isEvaluated.column noColon
      isEvaluated.nested fun name isName => (isEvaluated.callees name isName).noParenthesis
  rw [WrittenFrame.outOfEval, if_pos (List.isPrefixOf_iff_prefix.2 isEvaluated.prefix_evaluatedFile)]
  simp only [found]
  rw [ofCaptures_captureFile cut (Nat.zero_add _)]

variable {evalLine evalColumn : List Char}

/-- The first form reads a frame of evaluated code as the innermost place. -/
theorem written_callText (isEvaluated : IsEvaluatedCall method names file line column)
    (isEvalLine : IsNumber evalLine) (isEvalColumn : IsNumber evalColumn) :
    all.findSome?
        (·.written? (callText method (evaluatedFile names file line column) evalLine evalColumn)) =
      some ⟨method, file, some line, some column⟩ := by
  have begins : BeginsChrome (7 + method.length + 2)
      (evaluatedFile names file line column ++ placeText evalLine evalColumn) := by
    obtain ⟨rest, cut⟩ := isEvaluated.prefix_evaluatedFile
    refine ⟨"eval".toList, rest ++ placeText evalLine evalColumn, ?_, ?_⟩
    · rw [← cut, List.append_assoc]
    · exact spells_anyOf.2 (.inl ⟨word "eval", by simp, spells_word.2 (by decide)⟩)
  have matched := matchFront?_chrome isEvaluated.method.noParenthesis isEvaluated.method.inLine
    isEvaluated.inLine isEvalLine isEvalColumn begins
  have reads := written?_eq_some .chrome matched (ofCaptures_callText _ _ _ _)
  rw [all, List.findSome?_cons, reads, resolveEval, isEvaluated.outOfEval_evaluatedFile]

end IsEvaluatedCall

end Nested

section Lines

/-- A method that can stand in front of an at sign, or none. -/
structure IsSigner (method : List Char) : Prop where
  unspaced : ∀ char ∈ method, Text.isBlank char = false
  undivided : ∀ char ∈ ['(', '@'], char ∉ method
  noPage : ¬ BeginsPage method

instance (method : List Char) : Decidable (IsSigner method) :=
  decidable_of_iff
    ((method.all fun char => decide (Text.isBlank char = false)) = true ∧
      (['(', '@'].all fun char => decide (char ∉ method)) = true ∧ ¬ BeginsPage method)
    ⟨fun ⟨unspaced, undivided, noPage⟩ =>
      ⟨Text.all_decide_iff.1 unspaced, Text.all_decide_iff.1 undivided, noPage⟩,
    fun isSigner => ⟨Text.all_decide_iff.2 isSigner.unspaced,
      Text.all_decide_iff.2 isSigner.undivided, isSigner.noPage⟩⟩

/-- The lines at which code was evaluated, behind a file. -/
def evaluatedLines (lines : List (List Char)) : List Char :=
  lines.flatMap fun line => " line ".toList ++ (line ++ " > eval".toList)

variable {method file line evalLine evalColumn : List Char} {lines : List (List Char)}

/-- The forms with a keyword do not read a line whose first space stands behind an at sign. -/
theorem matchFront?_eq_none_of_sign {others : Pattern} (noSpace : ' ' ∉ method) :
    (seq atKeyword others).matchFront? (signedText method file evalLine evalColumn) = none := by
  refine matchFront?_eq_none fun taken rest cut spells => noSpace ?_
  obtain ⟨_, behind, rfl, keyword, -⟩ := spells_seq.1 spells
  obtain ⟨blanks, letters, rfl, blank, isAt⟩ := exists_of_spells_atKeyword keyword
  have noSign : '@' ∉ blanks ++ (letters ++ [' ']) := by
    have noBlank : '@' ∉ blanks := Text.not_mem_of_blank blank (by decide)
    have noLetter : '@' ∉ letters := Text.not_mem_of_map_foldCase isAt (by decide) (by decide)
    simp [noBlank, noLetter]
  have begins : blanks ++ (letters ++ [' ']) <+: signedText method file evalLine evalColumn :=
    ⟨behind ++ rest, by simp [cut]⟩
  exact (Text.prefix_of_prefix_separated noSign begins).subset (by simp)

/-- The third form ends a method at the first at sign if it knows the file behind it. -/
theorem matchFront?_gecko_of_isKnown (isSigner : IsSigner method)
    (fileInLine : ∀ char ∈ file, isInLine char = true) (known : IsKnown file)
    (isLine : IsNumber evalLine) (isColumn : IsNumber evalColumn) :
    geckoPattern.matchFront? (signedText method file evalLine evalColumn) =
      some (signedCaptures method file evalLine evalColumn) := by
  have unspaced : ∀ char ∈ (signedText method file evalLine evalColumn).head?,
      Text.isBlank char = false := by
    intro char isHead
    cases method with
    | nil =>
      obtain rfl := Option.some.inj isHead
      decide
    | cons first method =>
      obtain rfl := Option.some.inj isHead
      exact isSigner.unspaced first List.mem_cons_self
  -- In front of the line the form looks for a file before it looks for the sign.
  have refused (front late : List Char) (cut : method = front ++ late) (captures : Captures) :
      front.length = 0 → geckoEnd.run ⟨front.length, late ++ '@' ::
        (file ++ placeUpTo [] evalLine evalColumn), captures⟩ found = none := by
    intro atFront
    obtain rfl := List.length_eq_zero_iff.1 atFront
    obtain rfl : method = late := cut
    exact run_geckoEnd_eq_none isSigner.noPage
  rw [matchFront?_gecko unspaced, signedText]
  refine runSparing_eq_some (inLine_of_unspaced isSigner.unspaced) ?_ ?_
  · intro front late cut nonempty
    obtain ⟨first, late, rfl⟩ := List.exists_cons_of_ne_nil nonempty
    have other (char : Char) (divides : char ∈ ['(', '@']) : first ≠ char := by
      rintro rfl
      exact isSigner.undivided first divides (by simp [cut])
    rw [Nat.zero_add]
    refine (run_afterMethod_of_refused (by simpa using other '(' (by decide))
      (refused _ _ cut _)).trans ?_
    exact run_char_of_head (by simpa using other '@' (by decide))
  · rw [Nat.zero_add]
    refine (run_afterMethod_of_refused (by simp)
      (refused method [] (List.append_nil _).symm _)).trans ?_
    rw [List.nil_append, run_char, run_geckoEnd fileInLine isLine isColumn, if_pos known]
    rfl

/-- What is captured of a file with the lines of evaluations. -/
def originCaptures (file line : List Char) : Captures :=
  (Captures.none.set .file ⟨0, file.length⟩).set .line
    ⟨file.length + 6, file.length + 6 + line.length⟩

/-- The file and the first line are captured, however many lines follow. -/
theorem search?_geckoOrigin (nonempty : file ≠ [])
    (unspaced : ∀ char ∈ file, Text.isBlank char = false) (isLine : IsNumber line) :
    geckoOriginPattern.search? (file ++ evaluatedLines (line :: lines)) =
      some (originCaptures file line) := by
  have regrouped : file ++ evaluatedLines (line :: lines) =
      file ++ (" line ".toList ++ (line ++ (" > eval".toList ++ evaluatedLines lines))) := by
    simp [evaluatedLines]
  have unfolded {text : List Char} : geckoOriginPattern.run ⟨0, text, Captures.none⟩ found =
      (greedyOne fun char => !Text.isBlank char).run ⟨0, text, Captures.none⟩ fun after =>
        (word " line ").run (after.capture .file 0) fun middle => digits.run middle fun last =>
          (seq (many (Pattern.all [word " > eval line ", digits])) (word " > eval")).run
            (last.capture .line middle.offset) found := rfl
  have silent :
      (seq (many (Pattern.all [word " > eval line ", digits])) (word " > eval")).IsSilent := by
    intro part
    simp [setsPart, digits, greedyOne]
  rw [search?, regrouped]
  refine searchFrom?_of_some (unfolded.trans ?_)
  refine run_greedyOne_of_stop nonempty (fun char isIn => by rw [unspaced char isIn]; rfl)
    (by rintro _ ⟨⟩; decide) ?_
  refine (run_word (by decide)).trans ?_
  refine run_greedyOne_of_stop isLine.nonempty isLine.digits (by rintro _ ⟨⟩; decide) ?_
  have always {cursor : Cursor} (kept : cursor.captures = originCaptures file line) :
      found cursor = some (originCaptures file line) := congrArg some kept
  have captured : ((Captures.none.set .file ⟨0, 0 + file.length⟩).set .line
      ⟨0 + file.length + 6, 0 + file.length + 6 + line.length⟩) = originCaptures file line := by
    rw [Nat.zero_add, originCaptures]
  exact run_eq_some_of_isSilent silent (fun _ _ _ _ => .inr (always captured))
    ⟨" > eval".toList, evaluatedLines lines, rfl, .seq .stop (spells_word.2 (by decide)),
      always captured⟩

/-- The parts of a frame of evaluated code in the third form. -/
structure IsEvaluatedAt (method file line : List Char) (lines : List (List Char)) : Prop where
  method : IsSigner method
  unspaced : ∀ char ∈ file, Text.isBlank char = false
  page : BeginsPage file
  line : IsNumber line
  lines : ∀ line ∈ lines, IsNumber line

namespace IsEvaluatedAt

/-- A file with the lines of evaluations has no line feed. -/
theorem inLine (isEvaluated : IsEvaluatedAt method file line lines) :
    ∀ char ∈ file ++ evaluatedLines (line :: lines), isInLine char = true := by
  have words : ∀ char ∈ " line ".toList ++ " > eval".toList, isInLine char = true :=
    Text.forall_mem_of_all (by decide)
  refine List.forall_mem_append.2 ⟨inLine_of_unspaced isEvaluated.unspaced, fun char isIn => ?_⟩
  obtain ⟨digits, isOne, isIn⟩ := List.mem_flatMap.1 isIn
  have isNumber : IsNumber digits := by
    rcases List.mem_cons.1 isOne with rfl | isOther
    · exact isEvaluated.line
    · exact isEvaluated.lines digits isOther
  rcases List.mem_append.1 isIn with isWord | isIn
  · exact words char (List.mem_append_left _ isWord)
  · rcases List.mem_append.1 isIn with isDigit | isWord
    · exact isNumber.inLine char isDigit
    · exact words char (List.mem_append_right _ isWord)

/-- A file with the lines of evaluations begins as the file does. -/
theorem isKnown (isEvaluated : IsEvaluatedAt method file line lines) :
    IsKnown (file ++ evaluatedLines (line :: lines)) := by
  obtain ⟨wanted, isOne, begins⟩ := isEvaluated.page
  refine .inl ⟨wanted, isOne, ?_⟩
  rw [List.map_append]
  exact begins.trans (List.prefix_append _ _)

theorem file_ne_nil (isEvaluated : IsEvaluatedAt method file line lines) : file ≠ [] := by
  rintro rfl
  exact absurd isEvaluated.page (by decide)

/-- A frame of evaluated code is moved to the first line behind the file, and its column is lost. -/
theorem outOfNestedEval (isEvaluated : IsEvaluatedAt method file line lines)
    (evalLine evalColumn : Option (List Char)) :
    WrittenFrame.outOfNestedEval
        ⟨method, file ++ evaluatedLines (line :: lines), evalLine, evalColumn⟩ =
      ⟨method, file, some line, none⟩ := by
  have regrouped : file ++ evaluatedLines (line :: lines) =
      (file ++ " line ".toList) ++ (line ++ (" > eval".toList ++ evaluatedLines lines)) := by
    simp [evaluatedLines]
  have occurs : Text.occurs " > eval".toList (file ++ evaluatedLines (line :: lines)) = true :=
    Text.occurs_iff.2 ⟨(file ++ " line ".toList) ++ line, evaluatedLines lines, by
      rw [regrouped]
      simp⟩
  have found : geckoOriginPattern.search? (file ++ evaluatedLines (line :: lines)) =
      some (originCaptures file line) :=
    search?_geckoOrigin isEvaluated.file_ne_nil isEvaluated.unspaced isEvaluated.line
  have isFile : Span.of ⟨0, file.length⟩ (file ++ evaluatedLines (line :: lines)) = file := by
    simp [Span.of]
  have isLine : Span.of ⟨file.length + 6, file.length + 6 + line.length⟩
      (file ++ evaluatedLines (line :: lines)) = line :=
    Span.of_eq regrouped (by simp) (by simp)
  rw [WrittenFrame.outOfNestedEval, if_pos occurs]
  simp only [found]
  simp [WrittenFrame.ofCaptures, Captures.text?, originCaptures, Captures.set, Captures.none, isFile,
    isLine]

/-- The third form reads a frame of evaluated code as the file and the first line. -/
theorem written_signedText (isEvaluated : IsEvaluatedAt method file line lines)
    (isEvalLine : IsNumber evalLine) (isEvalColumn : IsNumber evalColumn) :
    all.findSome? (·.written?
        (signedText method (file ++ evaluatedLines (line :: lines)) evalLine evalColumn)) =
      some ⟨method, file, some line, none⟩ := by
  have noSpace : ' ' ∉ method :=
    Text.not_mem_of_unspaced isEvaluated.method.unspaced (by decide)
  have unread (grammar : Grammar) {others : Pattern}
      (keyword : grammar.pattern = seq atKeyword others) : grammar.written? (signedText method
        (file ++ evaluatedLines (line :: lines)) evalLine evalColumn) = none :=
    grammar.written?_eq_none (keyword ▸ matchFront?_eq_none_of_sign noSpace)
  have matched := matchFront?_gecko_of_isKnown isEvaluated.method isEvaluated.inLine
    isEvaluated.isKnown isEvalLine isEvalColumn
  have reads := written?_eq_some .gecko matched (ofCaptures_signedText _ _ _ _)
  rw [all, List.findSome?_cons, unread .chrome rfl, List.findSome?_cons, unread .winjs rfl,
    List.findSome?_cons, reads, resolveEval, isEvaluated.outOfNestedEval]

end IsEvaluatedAt

end Lines

end Grammar

namespace Frame

open Grammar

/-- The name that a frame has for its method. -/
def nameOf (method : List Char) : Option String :=
  if method.isEmpty then none else some (String.ofList method)

/-- However deep evaluated code is nested, its frame is attributed to the file that is really there.
In the first form that is the innermost place, with its line and its column. In the third form it is
the file in front of all lines, with the first of them; the column inside the evaluated code is
dropped. Where the frame is inside the evaluated code does not matter. -/
theorem ofLine_evaluated :
    (∀ (method : List Char) (names : List (List Char))
        (file line column evalLine evalColumn : List Char),
      IsEvaluatedCall method names file line column → IsNumber evalLine → IsNumber evalColumn →
      line.length ≤ Number.digitLimit → column.length ≤ Number.digitLimit →
      ofLine (callText method (evaluatedFile names file line column) evalLine evalColumn) =
        .ok (some ⟨nameOf method, String.ofList file, some (Number.digitsValue line : Int),
          some (Number.digitsValue column : Int)⟩)) ∧
    ∀ (method file line : List Char) (lines : List (List Char)) (evalLine evalColumn : List Char),
      IsEvaluatedAt method file line lines → IsNumber evalLine → IsNumber evalColumn →
      line.length ≤ Number.digitLimit →
      ofLine (signedText method (file ++ evaluatedLines (line :: lines)) evalLine evalColumn) =
        .ok (some ⟨nameOf method, String.ofList file, some (Number.digitsValue line : Int),
          none⟩) := by
  constructor
  · intro method names file line column evalLine evalColumn isEvaluated isEvalLine isEvalColumn
      fewLine fewColumn
    rw [ofLine, readBy, isEvaluated.written_callText isEvalLine isEvalColumn]
    simp only [WrittenFrame.frame, number?_of_length_le fewLine, number?_of_length_le fewColumn]
    rfl
  · intro method file line lines evalLine evalColumn isEvaluated isEvalLine isEvalColumn fewLine
    rw [ofLine, readBy, isEvaluated.written_signedText isEvalLine isEvalColumn]
    simp only [WrittenFrame.frame, number?_of_length_le fewLine]
    rfl

/-- A place two evaluations deep, in a file with colons, and two lines without a method. -/
theorem ofLine_evaluated_twice :
    ofLine "    at f (eval at g (eval at h (http://a:80/b.js:007:9)), <anonymous>:1:2)".toList =
      .ok (some ⟨some "f", "http://a:80/b.js", some 7, some 9⟩) ∧
    ofLine "@https://host/a.js line 26 > eval line 2 > eval:1:2".toList =
      .ok (some ⟨none, "https://host/a.js", some 26, none⟩) := by
  have isCall : IsEvaluatedCall "f".toList ["g".toList, "h".toList] "http://a:80/b.js".toList
      "007".toList "9".toList :=
    ⟨by decide, by decide, by decide, Text.forall_mem_of_all (by decide), by decide, by decide⟩
  have isAt : IsEvaluatedAt [] "https://host/a.js".toList "26".toList ["2".toList] :=
    ⟨by decide, Text.forall_mem_of_all (by decide), by decide, by decide, by decide⟩
  have call := ofLine_evaluated.1 _ _ _ _ _ "1".toList "2".toList isCall (by decide) (by decide)
    (by decide) (by decide)
  have signed := ofLine_evaluated.2 _ _ _ _ "1".toList "2".toList isAt (by decide) (by decide)
    (by decide)
  have callLine : "    at f (eval at g (eval at h (http://a:80/b.js:007:9)), <anonymous>:1:2)".toList =
      callText "f".toList (evaluatedFile ["g".toList, "h".toList] "http://a:80/b.js".toList
        "007".toList "9".toList) "1".toList "2".toList := by decide
  have signedLine : "@https://host/a.js line 26 > eval line 2 > eval:1:2".toList =
      signedText [] ("https://host/a.js".toList ++ evaluatedLines ["26".toList, "2".toList])
        "1".toList "2".toList := by decide
  rw [callLine, signedLine, call, signed]
  decide

end Frame

end Retrace
