import Retrace.Proofs.Frame.Anonymous.Basic

/-!
# At signs and bundles

The third form has no keyword. It takes a call site without a method as a method with an at sign
where it knows what stands behind the sign, or else as a bundle that begins with the line.
-/

namespace Retrace

namespace Grammar

open Pattern

/-- A text without an at sign ends, without regard to case, as bundles do. -/
structure IsBundle (text : List Char) : Prop where
  noSign : '@' ∉ text
  ends : "bundle".toList <:+ text.map Text.foldCase

instance (text : List Char) : Decidable (IsBundle text) :=
  decidable_of_iff ('@' ∉ text ∧ "bundle".toList <:+ text.map Text.foldCase)
    ⟨fun ⟨noSign, ends⟩ => ⟨noSign, ends⟩, fun isBundle => ⟨isBundle.noSign, isBundle.ends⟩⟩

/-- The third form knows a file by its beginning or by its end. -/
def IsKnown (file : List Char) : Prop :=
  BeginsPage file ∨ IsBundle file

instance (file : List Char) : Decidable (IsKnown file) :=
  inferInstanceAs (Decidable (BeginsPage file ∨ IsBundle file))

/-- What stands in front of and behind the first at sign behind which the third form knows a file. -/
def splitAtKnown? : List Char → Option (List Char × List Char)
  | [] => none
  | char :: rest =>
    if char = '@' ∧ IsKnown rest then some ([], rest)
    else (splitAtKnown? rest).map fun parts => (char :: parts.1, parts.2)

/-- A text without an at sign in front does not change where a text is split. -/
theorem splitAtKnown?_append {front : List Char} (noSign : '@' ∉ front) (text : List Char) :
    splitAtKnown? (front ++ text) =
      (splitAtKnown? text).map fun parts => (front ++ parts.1, parts.2) := by
  induction front with
  | nil => simp
  | cons char front inductionHypothesis =>
    obtain ⟨different, others⟩ := not_or.1 (mt List.mem_cons.2 noSign)
    have noSplit : ¬ (char = '@' ∧ IsKnown (front ++ text)) := fun isSplit => different isSplit.1.symm
    rw [List.cons_append, splitAtKnown?, if_neg noSplit, inductionHypothesis others,
      Option.map_map]
    rfl

/-- A text is split at an at sign, behind which the third form knows a file. -/
theorem of_splitAtKnown?_eq_some {text front behind : List Char}
    (split : splitAtKnown? text = some (front, behind)) :
    text = front ++ '@' :: behind ∧ IsKnown behind := by
  induction text generalizing front with
  | nil => cases split
  | cons char text inductionHypothesis =>
    rw [splitAtKnown?] at split
    split at split
    next isSplit =>
      cases split
      exact ⟨by rw [isSplit.1, List.nil_append], isSplit.2⟩
    next =>
      obtain ⟨⟨before, _⟩, later, same⟩ := Option.map_eq_some_iff.1 split
      cases same
      obtain ⟨rfl, known⟩ := inductionHypothesis later
      exact ⟨rfl, known⟩

variable {file line column : List Char} {captures : Captures} {offset : Nat}

/-- The third form finds only files with their place that it knows. -/
theorem isKnown_of_spells_geckoEnd {taken rest : List Char} (isLine : IsNumber line)
    (isColumn : IsNumber column) (cut : file ++ placeUpTo [] line column = taken ++ rest)
    (spells : geckoEnd.Spells offset taken rest) : IsKnown file := by
  obtain ⟨_, place, rfl, captured, behind⟩ := spells_seq.1 spells
  rw [List.append_assoc] at cut
  rcases spells_either.1 (spells_capture.1 captured) with page | ending
  · obtain ⟨opening, path, rfl, start, -⟩ := spells_seq.1 page
    rw [List.append_assoc] at cut
    obtain ⟨wanted, isOne, front, back, rfl, folded⟩ := exists_of_spells_geckoFileStart start
    obtain ⟨others, rfl⟩ := inside_of_spells_geckoFileStart cut start
    exact .inl ⟨wanted, isOne, (back ++ others).map Text.foldCase, by simp [folded]⟩
  · obtain ⟨name, bundle, rfl, isName, isBundle⟩ := spells_seq.1 ending
    have folded := spells_word.1 isBundle
    obtain ⟨numbers, closing, few, noColon, isPlace⟩ := isPlace_of_spells .wanted .unclosed behind
    have whole : file = name ++ bundle := by
      rcases List.append_eq_append_iff.1 cut with ⟨further, isFile, inPlace⟩ | ⟨late, isFile, inPlace⟩
      · obtain rfl := further_eq_nil_of_bundle folded isFile ⟨_, inPlace⟩ isLine isColumn
        rw [isFile, List.append_nil]
      · by_contra longer
        have nonempty : late ≠ [] := by
          rintro rfl
          exact longer (by rw [isFile, List.append_nil])
        rw [inPlace] at isPlace
        exact not_isPlace nonempty few noColon isPlace
    subst whole
    refine .inr ⟨?_, name.map Text.foldCase, by rw [List.map_append, folded]⟩
    have noBundleSign : '@' ∉ bundle :=
      Text.not_mem_of_map_foldCase folded (by decide) (by decide)
    rw [List.mem_append, not_or]
    exact ⟨fun isIn => absurd rfl (of_decide_eq_true (spells_greedy.1 isName '@' isIn)),
      noBundleSign⟩

/-- The third form spells a bundle with its place. -/
theorem spells_geckoEnd_of_isBundle (isLine : IsNumber line) (isColumn : IsNumber column)
    (isBundle : IsBundle file) :
    geckoEnd.Spells offset (file ++ placeUpTo [] line column) [] := by
  obtain ⟨front, folded⟩ := isBundle.ends
  obtain ⟨name, bundle, rfl, -, isWord⟩ := List.map_eq_append_iff.1 folded.symm
  have noSign : ∀ char ∈ name, decide (char ≠ '@') = true := by
    intro char isIn
    refine decide_eq_true fun isSign => ?_
    subst isSign
    exact isBundle.noSign (List.mem_append_left _ isIn)
  have parted : placeUpTo [] line column = (':' :: line) ++ ((':' :: column) ++ []) := by
    simp [placeUpTo]
  rw [parted]
  refine .seq (.capture (.right (.seq (.greedy noSign) (spells_word.2 isWord)))) ?_
  refine .seq (spells_optional.2 (.inl (spells_numberPart.2 ⟨line, rfl, isLine⟩))) ?_
  refine .seq (spells_optional.2 (.inl (spells_numberPart.2 ⟨column, rfl, isColumn⟩))) ?_
  exact spells_lineEnd.2 ⟨by simp, .inl rfl⟩

/-- The third form finds a file with its place if it knows the file. -/
theorem run_geckoEnd_ne_none (inLine : ∀ char ∈ file, isInLine char = true) (isLine : IsNumber line)
    (isColumn : IsNumber column) (known : IsKnown file) :
    geckoEnd.run ⟨offset, file ++ placeUpTo [] line column, captures⟩ found ≠ none := by
  rcases known with ⟨wanted, isOne, letters, folded⟩ | bundle
  · obtain ⟨opening, path, rfl, isWord, -⟩ := List.map_eq_append_iff.1 folded.symm
    have begins : ∃ front back, (opening ++ path) ++ placeUpTo [] line column = front ++ back ∧
        geckoFileStart.Spells offset front back :=
      ⟨opening, _, List.append_assoc _ _ _, spells_geckoFileStart isOne isWord⟩
    rw [run_geckoEnd_eq_run_either, run_either_of_some (run_pageEnd inLine isLine isColumn begins)]
    exact Option.some_ne_none _
  · have always : ∀ cursor, found cursor ≠ none := fun cursor => Option.some_ne_none _
    have spells : geckoEnd.Spells offset (file ++ placeUpTo [] line column) [] :=
      spells_geckoEnd_of_isBundle isLine isColumn bundle
    rw [← List.append_nil (file ++ placeUpTo [] line column)]
    exact run_ne_none always spells

/-- The third form captures a file with its place if it knows the file, and nothing otherwise. -/
theorem run_geckoEnd (inLine : ∀ char ∈ file, isInLine char = true) (isLine : IsNumber line)
    (isColumn : IsNumber column) :
    geckoEnd.run ⟨offset, file ++ placeUpTo [] line column, captures⟩ found =
      if IsKnown file then some (captureFile captures offset file line column) else none := by
  split
  next known =>
    exact (run_geckoEnd_atMost inLine isLine isColumn).resolve_left
      (run_geckoEnd_ne_none inLine isLine isColumn known)
  next unknown =>
    exact run_eq_none fun taken rest cut spells =>
      unknown (isKnown_of_spells_geckoEnd isLine isColumn cut spells)

/-- Behind the front of the line, the third form ends a method nowhere but at an at sign. -/
theorem run_afterMethod_eq_none_of_head {text : List Char} (noParenthesis : '(' ∉ text)
    (passed : offset ≠ 0) (noSign : text.head? ≠ some '@') :
    afterMethod.run ⟨offset, text, captures⟩ found = none := by
  rw [run_afterMethod_of_refused (fun isHead => noParenthesis (List.mem_of_head? isHead))
    fun atFront => absurd atFront passed]
  exact run_char_of_head noSign

/-- At each character behind the front of the line, the third form ends a method exactly if that is
an at sign and it knows the file behind it. -/
theorem run_afterMethod_cons {char : Char}
    (noParenthesis : '(' ∉ char :: (file ++ placeUpTo [] line column))
    (inLine : ∀ char ∈ file, isInLine char = true) (isLine : IsNumber line)
    (isColumn : IsNumber column) (passed : offset ≠ 0) :
    afterMethod.run ⟨offset, char :: (file ++ placeUpTo [] line column), captures⟩ found =
      if char = '@' ∧ IsKnown file then some (captureFile captures (offset + 1) file line column)
      else none := by
  by_cases sign : char = '@'
  · subst sign
    rw [run_afterMethod_atSign passed, run_geckoEnd inLine isLine isColumn]
    simp
  · rw [if_neg fun isSplit => sign isSplit.1]
    exact run_afterMethod_eq_none_of_head noParenthesis passed (by simpa using sign)

/-- Behind the front of the line, the third form splits a text at the first at sign behind which it
knows a file, wherever the method begins. -/
theorem runSparing_afterMethod (start : Nat) (noParenthesis : '(' ∉ file ++ placeUpTo [] line column)
    (inLine : ∀ char ∈ file, isInLine char = true) (isLine : IsNumber line)
    (isColumn : IsNumber column) (passed : offset ≠ 0) :
    runSparing isInLine captures (fun after => afterMethod.run (after.capture .method start) found)
        offset (file ++ placeUpTo [] line column) =
      (splitAtKnown? file).map fun parts =>
        captureFile (captures.set .method ⟨start, offset + parts.1.length⟩)
          (offset + parts.1.length + 1) parts.2 line column := by
  induction file generalizing offset with
  | nil =>
    -- there is no at sign in a place
    have isDivider : '@' ∈ [':', '(', ')', '@', '[', '\\', ' ', '\n'] := by decide
    have noSign : '@' ∉ placeUpTo [] line column := by
      simp [placeUpTo, isLine.not_mem isDivider, isColumn.not_mem isDivider]
    rw [List.nil_append] at noParenthesis ⊢
    rw [runSparing_eq_findSome?]
    refine List.findSome?_eq_none_iff.2 fun after isAfter => ?_
    obtain ⟨front, behind, cut, -, rfl⟩ := mem_greedyOutcomes.1 (mem_sparingOutcomes.1 isAfter)
    rw [cut] at noSign noParenthesis
    exact run_afterMethod_eq_none_of_head (mt (List.mem_append_right front) noParenthesis)
      (by simp [passed])
      fun isHead => noSign (List.mem_append_right front (List.mem_of_head? isHead))
  | cons char file inductionHypothesis =>
    obtain ⟨isAccepted, others⟩ := List.forall_mem_cons.1 inLine
    have behind := inductionHypothesis (mt (List.mem_cons_of_mem char) noParenthesis) others
      (Nat.succ_ne_zero offset)
    have here : afterMethod.run (Cursor.capture
          ⟨offset, char :: (file ++ placeUpTo [] line column), captures⟩ .method start) found =
        if char = '@' ∧ IsKnown file then
          some (captureFile (captures.set .method ⟨start, offset⟩) (offset + 1) file line column)
        else none :=
      run_afterMethod_cons noParenthesis others isLine isColumn passed
    rw [List.cons_append, runSparing, here, splitAtKnown?]
    by_cases isSplit : char = '@' ∧ IsKnown file
    · rw [if_pos isSplit, if_pos isSplit]
      rfl
    · have counted (count : Nat) : offset + 1 + count = offset + (count + 1) := by omega
      rw [if_neg isSplit, if_neg isSplit, Option.map_map]
      dsimp only
      rw [if_pos isAccepted, behind]
      simp only [Nat.succ_eq_add_one, counted]
      rfl

/-- The third form from the method on. -/
def geckoBody : Pattern :=
  seq (capture .method anything) afterMethod

/-- The third form tries a line from its first character on that is no blank, and then, one by one,
from the blanks in front of it. -/
theorem matchFront?_geckoBody (text : List Char) :
    geckoPattern.matchFront? text =
      (seq (greedy Text.isBlank) geckoBody).run ⟨0, text, Captures.none⟩ found := rfl

/-- Behind the front of the line, the third form splits what is left of a call site in front of its
place, wherever the method begins. -/
theorem runSparing_afterOpening (start : Nat) (isAnonymous : IsAnonymous file line column)
    {left : List Char} (isLeft : left ⊆ Frame.opening.toList) (passed : offset ≠ 0) :
    runSparing isInLine captures (fun after => afterMethod.run (after.capture .method start) found)
        offset (left ++ (file ++ placeUpTo [] line column)) =
      (splitAtKnown? file).map fun parts =>
        captureFile (captures.set .method ⟨start, offset + (left ++ parts.1).length⟩)
          (offset + (left ++ parts.1).length + 1) parts.2 line column := by
  have noSign : '@' ∉ left := fun isIn => absurd (isLeft isIn) (by decide)
  have noParenthesis : '(' ∉ (left ++ file) ++ placeUpTo [] line column := by
    rw [List.append_assoc, List.mem_append, not_or]
    exact ⟨fun isIn => absurd (isLeft isIn) (by decide),
      isAnonymous.not_mem_reference (by decide)⟩
  have inLine : ∀ char ∈ left ++ file, isInLine char = true :=
    List.forall_mem_append.2
      ⟨fun char isIn => inLine_opening char (isLeft isIn), isAnonymous.inLine⟩
  rw [← List.append_assoc, runSparing_afterMethod start noParenthesis inLine isAnonymous.line
    isAnonymous.column passed, splitAtKnown?_append noSign, Option.map_map]
  rfl

/-- The line of a call site does not begin like a page. -/
theorem not_beginsPage_opening : ¬ BeginsPage (Frame.opening.toList ++ file) := by
  rintro ⟨wanted, isOne, begins⟩
  have other : ∀ wanted ∈ pageWords, wanted.toList ≠ [] ∧ wanted.toList.head? ≠ some ' ' := by
    decide
  obtain ⟨nonempty, noBlank⟩ := other wanted isOne
  obtain ⟨letter, letters, isWord⟩ := List.exists_cons_of_ne_nil nonempty
  have blank : (Frame.opening.toList ++ file).map Text.foldCase =
      ' ' :: ("   at ".toList ++ file.map Text.foldCase) := by
    rw [List.map_append]
    rfl
  rw [isWord, blank] at begins
  rw [isWord, (List.cons_prefix_cons.1 begins).1] at noBlank
  exact noBlank rfl

/-- The line of a call site ends in a bundle if its file is one. -/
theorem isBundle_opening_iff : IsBundle (Frame.opening.toList ++ file) ↔ IsBundle file := by
  constructor
  · rintro ⟨noSign, front, cut⟩
    refine ⟨fun isIn => noSign (List.mem_append_right _ isIn), ?_⟩
    rw [List.map_append] at cut
    rcases List.append_eq_append_iff.1 cut with ⟨reaching, isOpening, isWord⟩ | ⟨before, -, isFile⟩
    · -- a word that reaches into the keyword would have the space that ends it
      by_cases none : reaching = []
      · subst none
        exact ⟨[], isWord⟩
      · have ends : "    at".toList ++ [' '] = front ++ reaching := by
          rw [← isOpening]
          rfl
        have isIn := List.mem_append_left (file.map Text.foldCase)
          (Text.mem_of_append_singleton ends none)
        rw [← isWord] at isIn
        exact absurd isIn (by decide)
    · exact ⟨before, isFile.symm⟩
  · rintro ⟨noSign, ends⟩
    constructor
    · rw [List.mem_append, not_or]
      exact ⟨by decide, noSign⟩
    · rw [List.map_append]
      exact ends.trans (List.suffix_append _ _)

/-- The third form knows the line of a call site by its end only. -/
theorem isKnown_opening_iff : IsKnown (Frame.opening.toList ++ file) ↔ IsBundle file :=
  (or_iff_right not_beginsPage_opening).trans isBundle_opening_iff

/-- Behind some of the blanks in front of a call site stands the rest of them. -/
theorem exists_blanks_left {front rest : List Char} {reference : List Char}
    (blank : ∀ char ∈ front, Text.isBlank char = true)
    (cut : Frame.opening.toList ++ reference = front ++ rest) :
    ∃ left, rest = left ++ reference ∧ Frame.opening.toList = front ++ left := by
  rcases List.append_eq_append_iff.1 cut with ⟨more, rfl, -⟩ | ⟨left, isOpening, rfl⟩
  · have isBlank := blank 'a' (List.mem_append_left more (by decide))
    exact absurd isBlank (by decide)
  · exact ⟨left, rfl, isOpening⟩

/-- The opening of a frame is the indent and the keyword. -/
theorem opening_eq_append : Frame.opening.toList = Frame.indent.toList ++ "at ".toList := by decide

theorem length_keyword (front : List Char) :
    4 + ("at ".toList ++ front).length = 7 + front.length := by
  rw [List.length_append]
  exact (Nat.add_assoc 4 3 front.length).symm

/-- What is captured of a line that is taken for a file with its place. -/
def captureLine (file line column : List Char) : Captures :=
  captureFile (Captures.none.set .method ⟨0, 0⟩) 0 (Frame.opening.toList ++ file) line column

/-- What is captured of a line that is split at an at sign behind the keyword. -/
def captureSplit (front behind line column : List Char) : Captures :=
  captureFile (Captures.none.set .method ⟨4, 7 + front.length⟩) (7 + front.length + 1) behind line
    column

/-- Where a file has an at sign behind which the third form knows a file, the third form takes the
keyword and what is in front of the sign for the method. -/
theorem matchFront?_gecko_of_split (isAnonymous : IsAnonymous file line column)
    {front behind : List Char} (split : splitAtKnown? file = some (front, behind)) :
    geckoPattern.matchFront? (anonymousText file line column) =
      some (captureSplit front behind line column) := by
  have indented : anonymousText file line column =
      Frame.indent.toList ++ ("at ".toList ++ (file ++ placeUpTo [] line column)) := by
    rw [anonymousText, opening_eq_append, List.append_assoc]
  rw [matchFront?_geckoBody, indented]
  refine runGreedy_eq_some (Text.forall_mem_of_all (by decide)) ?_ ?_
  · rintro (_ | ⟨char, more⟩) rest cut nonempty blank
    · exact absurd rfl nonempty
    · obtain ⟨rfl, -⟩ := List.cons_eq_cons.1 cut
      exact absurd (blank 'a' List.mem_cons_self) (by decide)
  · have body : geckoBody.run
        ⟨4, "at ".toList ++ (file ++ placeUpTo [] line column), Captures.none⟩ found = _ :=
      runSparing_afterOpening 4 isAnonymous (by decide) (Nat.succ_ne_zero 3)
    rw [split] at body
    simp only [Option.map_some, length_keyword] at body
    exact body

/-- At the front of the line, the third form takes the whole line for a file if that is a bundle, and
otherwise it goes on behind the first blank. -/
theorem run_geckoBody_atFront (isAnonymous : IsAnonymous file line column)
    (noSplit : splitAtKnown? file = none) :
    geckoBody.run ⟨0, anonymousText file line column, Captures.none⟩ found =
      if IsBundle file then some (captureLine file line column) else none := by
  have noParenthesis := isAnonymous.noParenthesis
  have inLine : ∀ char ∈ Frame.opening.toList ++ file, isInLine char = true :=
    List.forall_mem_append.2 ⟨inLine_opening, isAnonymous.inLine⟩
  have whole : geckoEnd.run
      ⟨0, anonymousText file line column, Captures.none.set .method ⟨0, 0⟩⟩ found =
      if IsBundle file then some (captureLine file line column) else none := by
    rw [anonymousText, ← List.append_assoc, run_geckoEnd inLine isAnonymous.line isAnonymous.column]
    exact if_congr isKnown_opening_iff rfl rfl
  by_cases isBundle : IsBundle file
  · rw [if_pos isBundle] at whole ⊢
    exact runSparing_of_some (run_afterMethod_atFront noParenthesis whole)
  · rw [if_neg isBundle] at whole ⊢
    have nothing : afterMethod.run
        (Cursor.capture ⟨0, anonymousText file line column, Captures.none⟩ .method 0) found =
          none := by
      have atFront : atStart.run
          ⟨0, anonymousText file line column, Captures.none.set .method ⟨0, 0⟩⟩
          (fun middle => geckoEnd.run middle found) = none := whole
      have noSign : (char '@').run
          ⟨0, anonymousText file line column, Captures.none.set .method ⟨0, 0⟩⟩
          (fun middle => geckoEnd.run middle found) = none := rfl
      rw [afterMethod, run_seq]
      refine (run_argumentList noParenthesis).trans ?_
      rw [run_seq]
      exact (run_either_of_none atFront).trans noSign
    have behind : runSparing isInLine Captures.none
        (fun after => afterMethod.run (after.capture .method 0) found) 1
        ("   at ".toList ++ (file ++ placeUpTo [] line column)) = _ :=
      runSparing_afterOpening 0 isAnonymous (by decide) Nat.one_ne_zero
    have cut : anonymousText file line column =
        ' ' :: ("   at ".toList ++ (file ++ placeUpTo [] line column)) := rfl
    have unfolded : geckoBody.run ⟨0, anonymousText file line column, Captures.none⟩ found =
        runSparing isInLine Captures.none
          (fun after => afterMethod.run (after.capture .method 0) found) 0
          (anonymousText file line column) := rfl
    rw [noSplit] at behind
    rw [cut] at nothing
    rw [unfolded, cut, runSparing, nothing]
    exact behind

/-- Where the third form knows no file behind an at sign, it takes the line for a file if that is a
bundle. -/
theorem matchFront?_gecko_of_no_split (isAnonymous : IsAnonymous file line column)
    (noSplit : splitAtKnown? file = none) :
    geckoPattern.matchFront? (anonymousText file line column) =
      if IsBundle file then some (captureLine file line column) else none := by
  rw [matchFront?_geckoBody, ← run_geckoBody_atFront isAnonymous noSplit]
  refine runGreedy_eq_of_refused fun blanks rest cut nonempty blank => ?_
  obtain ⟨left, rfl, isOpening⟩ := exists_blanks_left blank cut
  have isLeft : left ⊆ Frame.opening.toList := by
    rw [isOpening]
    exact List.subset_append_right _ _
  have passed : 0 + blanks.length ≠ 0 := by simpa using nonempty
  have split : geckoBody.run ⟨0 + blanks.length, left ++ (file ++ placeUpTo [] line column),
      Captures.none⟩ found = _ :=
    runSparing_afterOpening (0 + blanks.length) isAnonymous isLeft passed
  rw [noSplit] at split
  exact split

/-- A line that is taken for a file has the keyword in it. -/
theorem ofCaptures_captureLine (file line column : List Char) :
    WrittenFrame.ofCaptures (anonymousText file line column) (captureLine file line column) =
      ⟨[], Frame.opening.toList ++ file, some line, some column⟩ := by
  have cut : anonymousText file line column =
      [] ++ ((Frame.opening.toList ++ file) ++ placeUpTo [] line column) := by
    simp [anonymousText]
  have atFront : 0 = ([] : List Char).length := rfl
  rw [captureLine, ofCaptures_captureFile cut atFront]
  simp [Captures.text?, Captures.set, Span.of]

/-- A line that is split at an at sign has the keyword in its method. -/
theorem ofCaptures_captureSplit (front behind line column : List Char) :
    WrittenFrame.ofCaptures (anonymousText (front ++ '@' :: behind) line column)
      (captureSplit front behind line column) =
        ⟨"at ".toList ++ front, behind, some line, some column⟩ := by
  have length : 7 + front.length + 1 = (Frame.opening.toList ++ front ++ ['@']).length := by
    rw [List.length_append, List.length_append, length_opening]
    rfl
  have cut : anonymousText (front ++ '@' :: behind) line column =
      (Frame.opening.toList ++ front ++ ['@']) ++ (behind ++ placeUpTo [] line column) := by
    simp [anonymousText]
  have isMethod : Span.of ⟨4, 7 + front.length⟩ (anonymousText (front ++ '@' :: behind) line column) =
      "at ".toList ++ front := by
    have behindIndent : anonymousText (front ++ '@' :: behind) line column =
        Frame.indent.toList ++ (("at ".toList ++ front) ++
          ('@' :: (behind ++ placeUpTo [] line column))) := by
      rw [anonymousText, opening_eq_append]
      simp only [List.append_assoc, List.cons_append]
    refine Span.of_eq behindIndent (show 4 = Frame.indent.toList.length by decide) ?_
    rw [← length_keyword]
    rfl
  rw [captureSplit, ofCaptures_captureFile cut length]
  simp [Captures.text?, Captures.set, isMethod]

/-- The file of a bundle that begins with the line tells no line in which it was evaluated. -/
theorem outOfNestedEval_of_opening {written : WrittenFrame} (unspaced : ' ' ∉ file)
    (isFile : written.file = Frame.opening.toList ++ file) : written.outOfNestedEval = written := by
  unfold WrittenFrame.outOfNestedEval
  refine if_neg fun occurs => ?_
  obtain ⟨before, after, cut⟩ := Text.occurs_iff.1 occurs
  have parted : (before ++ [' ', '>']) ++ ' ' :: ("eval".toList ++ after) =
      Frame.opening.toList ++ file := by
    rw [← isFile, ← cut, List.append_assoc, List.append_assoc]
    rfl
  rcases List.append_eq_append_iff.1 parted with ⟨more, isOpening, -⟩ | ⟨more, -, isFile⟩
  · have isIn : '>' ∈ Frame.opening.toList := by
      rw [isOpening]
      simp
    exact absurd isIn (by decide)
  · rw [isFile] at unspaced
    simp at unspaced

end Grammar

end Retrace
