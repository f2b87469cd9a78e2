import Retrace.Proofs.Frame.Anonymous
import Retrace.Proofs.Frame.Layout
import Retrace.Proofs.Pattern.Indented

/-!
# Blanks around the forms

Blanks behind a line do not matter to any form: nothing in front of the end of a line takes them, or
what is in front of it needs something behind them. Blanks in front of a line do not matter either,
since all forms skip them first; only the third form may look for a file at the very front of the
text, and then it looks in front of the blanks.
-/

namespace Retrace

namespace Grammar

open Pattern

variable {grammar : Grammar} {line indent : List Char}

section Trailing

theorem refusesBlanks_isDigit : RefusesBlanks Text.isDigit :=
  fun _ blank => Text.isDigit_eq_false_of_isBlank blank

theorem refusesBlanks_isLetter : RefusesBlanks Text.isLetter := by
  intro char blank
  obtain ⟨range, isRange, low, high⟩ := Text.Ranges.covers_iff.1 blank
  have outside : ∀ range ∈ Text.blankRanges, range.2 < 97 ∨ 122 < range.1 := by decide
  have apart := outside range isRange
  rw [Text.isLetter, Text.foldCase_of_isBlank blank, Bool.and_eq_false_iff, decide_eq_false_iff_not,
    decide_eq_false_iff_not]
  by_contra inside
  rw [not_or, not_not, not_not] at inside
  have first : 97 ≤ char.toNat := inside.1
  have last : char.toNat ≤ 122 := inside.2
  omega

theorem refusesBlanks_unspaced : RefusesBlanks fun char => !Text.isBlank char := by
  intro char blank
  dsimp only
  rw [blank]
  rfl

/-- The end of a line is found behind blanks and nothing else. -/
theorem run_lineEnd {offset : Nat} {text : List Char} {captures : Captures} :
    lineEnd.run ⟨offset, text, captures⟩ found =
      if text.all Text.isBlank = true then some captures else none := by
  split
  next blank =>
    refine run_eq_some_of_isSilent isSilent_lineEnd (fun _ _ _ _ => .inr rfl)
      ⟨text, [], (List.append_nil _).symm, ?_, rfl⟩
    exact spells_lineEnd.2 ⟨List.all_eq_true.1 blank, .inl rfl⟩
  next written =>
    refine run_eq_none fun taken rest cut spells => written (List.all_eq_true.2 ?_)
    rw [cut]
    exact isBlank_of_spells_lineEnd spells

theorem settled_lineEnd : Settled (lineEnd.run · found) true where
  steady offset text captures blanks blank := by
    rw [run_lineEnd, run_lineEnd, List.all_append, List.all_eq_true.2 blank, Bool.and_true]
  atEnd offset captures := by
    rw [run_lineEnd]
    rfl

theorem opens_numberPart (part : Part) : (numberPart part).Opens :=
  (opens_char (by decide)).seq (Opens.capture
    ((opens_one refusesBlanks_isDigit).seq (settles_greedy refusesBlanks_isDigit))).settles

/-- What follows the line of a place is settled. -/
theorem settled_columnEnd {behind : Pattern} {closing : List Char}
    (ends : EndsPlace behind closing) : Settled (behind.run · found) true := by
  rcases ends.pattern with rfl | rfl
  · exact (opens_numberPart .column).optional ((opens_char (by decide)).optional settled_lineEnd)
  · exact (opens_numberPart .column).optional settled_lineEnd

theorem opens_httpScheme : httpScheme.Opens :=
  (opens_word (by decide) (by decide)).seq (settles_optional (opens_word (by decide) (by decide)))

theorem opens_chromeFileStart : chromeFileStart.Opens := by
  have drive : (Pattern.all [one Text.isLetter, char ':', char '\\']).Opens :=
    (opens_one refusesBlanks_isLetter).seq
      ((opens_char (by decide)).seq (opens_char (by decide)).settles).settles
  refine opens_anyOf (fun pattern isOne => ?_)
    ((opens_char (by decide)).seq (opens_char (by decide)).settles)
  simp only [List.mem_cons, List.not_mem_nil, or_false] at isOne
  rcases isOne with rfl | rfl | rfl | rfl | rfl | rfl | rfl | rfl | rfl | rfl | rfl
  case inr.inl => exact opens_httpScheme
  case inr.inr.inr.inr.inr.inr.inr.inr.inr.inl => exact opens_char (by decide)
  case inr.inr.inr.inr.inr.inr.inr.inr.inr.inr => exact drive
  all_goals exact opens_word (by decide) (by decide)

theorem opens_geckoFileStart : geckoFileStart.Opens := by
  refine opens_anyOf (fun pattern isOne => ?_) (opens_word (by decide) (by decide))
  simp only [List.mem_cons, List.not_mem_nil, or_false] at isOne
  rcases isOne with rfl | rfl | rfl | rfl | rfl | rfl | rfl
  case inr.inl => exact opens_httpScheme
  all_goals exact opens_word (by decide) (by decide)

/-- A file of the third form is settled: it begins with a word, or it ends with one. -/
theorem settled_geckoFile {α : Type} {next : Continuation α} {accepting : Bool}
    (settled : Settled next accepting) : Settled (geckoFile.run · next) false := by
  have path : anything.Settles := settles_sparing
  refine settled_capture settled fun settled => ?_
  exact settled_either ((opens_geckoFileStart.seq path).settled settled)
    (settled_greedy ((opens_word (by decide) (by decide)).settled settled) (.inr rfl))

/-- What a form asks for in front of its file is plain. -/
theorem isPlain_of_mem_fronts (grammar : Grammar) :
    ∀ front ∈ grammar.fronts, front.IsPlain = true := by
  cases grammar <;> decide

/-- Every form is settled. -/
theorem settled_pattern (grammar : Grammar) : Settled (grammar.pattern.run · found) false := by
  have needed {behind : Pattern} {closing : List Char} (ends : EndsPlace behind closing) :
      Settled ((seq (numberPart .line) behind).run · found) false :=
    (opens_numberPart .line).settled (settled_columnEnd ends)
  have wanted {behind : Pattern} {closing : List Char} (ends : EndsPlace behind closing) :
      Settled ((seq (optional (numberPart .line)) behind).run · found) true :=
    (opens_numberPart .line).optional (settled_columnEnd ends)
  have fromFile : Settled (geckoEnd.run · found) false := by
    have unfolded : geckoEnd =
        seq geckoFile (seq (optional (numberPart .line)) openColumnEnd) := rfl
    have settled := settled_geckoFile (wanted .unclosed)
    rw [unfolded]
    exact settled
  have path : anything.Settles := settles_sparing
  have fromStart : Settled ((seq (capture .file (seq chromeFileStart anything))
      (seq (optional (numberPart .line)) columnEnd)).run · found) false := by
    have opens : (capture .file (seq chromeFileStart anything)).Opens :=
      (opens_chromeFileStart.seq path).capture
    have settled := opens.settled (wanted .closed)
    exact settled
  have fromPlain {file behind : Pattern} {closing : List Char} (isPlain : file.IsPlain = true)
      (ends : EndsPlace behind closing) :
      Settled ((seq (capture .file file) (seq (numberPart .line) behind)).run · found) false := by
    have captured : (capture .file file).IsPlain = true := isPlain
    have settled := settled_of_isPlain captured (needed ends)
    exact settled
  have plain := isPlain_of_mem_fronts grammar
  cases grammar with
  | chrome => exact @settled_inTurn _ _ (fronts .chrome) _ plain fromStart
  | winjs =>
    have scheme : (Pattern.all [winjsScheme, char ':', anything]).IsPlain = true := rfl
    exact @settled_inTurn _ _ (fronts .winjs) _ plain (fromPlain scheme .closed)
  | gecko => exact @settled_inTurn _ _ (fronts .gecko) geckoEnd plain fromFile
  | node => exact @settled_inTurn _ _ (fronts .node) _ plain (@fromPlain anything _ _ rfl .closed)
  | jsc =>
    have unspaced : (Pattern.all [one fun char => !Text.isBlank char, anything]).IsPlain = true :=
      rfl
    exact @settled_inTurn _ _ (fronts .jsc) _ plain (fromPlain unspaced .unclosed)

end Trailing

section Leading

/-- A form with a keyword captures the same behind an indent. -/
theorem matchFront?_keyword {others : Pattern} (free : others.Unanchored = true)
    (blank : ∀ char ∈ indent, Text.isBlank char = true) (line : List Char) :
    (seq atKeyword others).matchFront? (indent ++ line) =
      ((seq atKeyword others).matchFront? line).map (Captures.shift indent.length) := by
  have isWord : "at ".toList = 'a' :: ['t', ' '] := rfl
  have avoids : (seq (word "at ") others).AvoidsBlanks := avoidsBlanks_word isWord (by decide)
  have isFree : (seq (word "at ") others).Unanchored = true := free
  exact matchFront?_indented isFree avoids.skipsBlanks blank line

/-- Many characters can do with one less. -/
theorem skipsBlanks_captured {part : Part} {repeated others : Pattern} {accepts : Char → Bool}
    (isRepeated : repeated = greedy accepts ∨ repeated = sparing accepts)
    (skips : others.SkipsBlanks) : (seq (capture part repeated) others).SkipsBlanks := by
  have spells_iff {offset : Nat} {taken rest : List Char} :
      (capture part repeated).Spells offset taken rest ↔ ∀ char ∈ taken, accepts char = true := by
    rcases isRepeated with rfl | rfl
    · rw [spells_capture, spells_greedy]
    · rw [spells_capture, spells_sparing]
  refine skipsBlanks_seq (fun _ spells => ?_) (fun _ => ⟨?_, skips⟩)
  · exact spells_iff.2 (List.forall_mem_cons.1 (spells_iff.1 spells)).2
  · exact spells_iff.2 (List.forall_mem_nil _)

/-- Arguments may be left out, but no blank takes their place. -/
theorem skipsBlanks_arguments {others : Pattern} (skips : others.SkipsBlanks) :
    (seq (optional argumentList) others).SkipsBlanks := by
  have opened : (seq argumentList others).AvoidsBlanks := (avoidsBlanks_char (by decide)).assoc
  exact skipsBlanks_optional opened.skipsBlanks skips

/-- The method of the fifth form, with its at sign. -/
def jscName : Pattern :=
  Pattern.all [capture .method (greedy (· ≠ '@')), optional argumentList, char '@']

/-- The fifth form captures the same behind an indent. -/
theorem matchFront?_jsc_append (blank : ∀ char ∈ indent, Text.isBlank char = true)
    (line : List Char) : jscPattern.matchFront? (indent ++ line) =
      (jscPattern.matchFront? line).map (Captures.shift indent.length) := by
  have file : jscEnd.SkipsBlanks :=
    (avoidsBlanks_one refusesBlanks_unspaced).assoc.capture.skipsBlanks
  have named : (seq jscName jscEnd).SkipsBlanks := by
    refine (skipsBlanks_captured (.inl rfl) ?_).assoc
    exact (skipsBlanks_arguments (avoidsBlanks_char (by decide)).skipsBlanks).assoc
  have free : (seq (optional jscName) jscEnd).Unanchored = true := rfl
  exact matchFront?_indented free (skipsBlanks_optional named file) blank line

/-- The third form where it does not look for a file at the front of the text. -/
def signedBody : Pattern :=
  seq (capture .method anything) (seq (optional argumentList) (seq (char '@') geckoEnd))

theorem unanchored_geckoEnd : geckoEnd.Unanchored = true := rfl

theorem matchFront?_signed_append (blank : ∀ char ∈ indent, Text.isBlank char = true)
    (line : List Char) : (indented signedBody).matchFront? (indent ++ line) =
      ((indented signedBody).matchFront? line).map (Captures.shift indent.length) := by
  have free : signedBody.Unanchored = true := rfl
  have skips : signedBody.SkipsBlanks := skipsBlanks_captured (.inr rfl)
    (skipsBlanks_arguments (avoidsBlanks_char (by decide)).skipsBlanks)
  exact matchFront?_indented free skips blank line

/-- The third form finds a file at the very front of a line, with no more than a place behind it. -/
def StandsAlone (line : List Char) : Prop :=
  (geckoEnd.matchFront? line).isSome = true

instance : DecidablePred StandsAlone :=
  fun line => inferInstanceAs (Decidable ((geckoEnd.matchFront? line).isSome = true))

theorem standsAlone_iff : StandsAlone line ↔ geckoEnd.Begins 0 line :=
  matchFront?_isSome_iff

/-- No file begins with a blank that the third form knows by its beginning. -/
theorem not_spells_geckoFileStart_of_isBlank {offset : Nat} {opening rest text : List Char}
    {char : Char} (blank : Text.isBlank char = true) (cut : opening ++ rest = char :: text) :
    ¬ geckoFileStart.Spells offset opening rest := by
  refine not_spells_geckoFileStart (fun wanted isOne isFirst => ?_) cut
  have unspaced : ∀ wanted ∈ pageWords, (wanted.toList.head?.any Text.isBlank) = false := by decide
  have noBlank := unspaced wanted isOne
  rw [isFirst, Option.any_some, Text.foldCase_of_isBlank blank, blank] at noBlank
  cases noBlank

/-- A file of the third form is not empty. -/
theorem not_spells_geckoFile_nil {offset : Nat} {rest : List Char} :
    ¬ geckoFile.Spells offset [] rest := by
  intro spells
  rcases spells_either.1 (spells_capture.1 spells) with page | ending
  · obtain ⟨opening, path, cut, start, -⟩ := spells_seq.1 page
    obtain ⟨rfl, -⟩ := List.append_eq_nil_iff.1 cut.symm
    obtain ⟨wanted, isOne, front, back, cut, folded⟩ := exists_of_spells_geckoFileStart start
    obtain ⟨rfl, -⟩ := List.append_eq_nil_iff.1 cut.symm
    have nonempty : ∀ wanted ∈ pageWords, wanted.toList ≠ [] := by decide
    exact nonempty wanted isOne folded.symm
  · obtain ⟨name, bundle, cut, -, isBundle⟩ := spells_seq.1 ending
    obtain ⟨-, rfl⟩ := List.append_eq_nil_iff.1 cut.symm
    cases spells_word.1 isBundle

/-- Where the third form finds a file with a blank in front, it finds one behind the blank. -/
theorem skipsBlanks_geckoEnd : geckoEnd.SkipsBlanks := by
  refine skipsBlanks_seq (fun {offset char taken rest} blank spells => ?_)
    (fun spells => absurd spells not_spells_geckoFile_nil)
  rcases spells_either.1 (spells_capture.1 spells) with page | ending
  · obtain ⟨opening, path, cut, start, -⟩ := spells_seq.1 page
    have whole : opening ++ (path ++ rest) = char :: (taken ++ rest) := by
      rw [← List.append_assoc, ← cut, List.cons_append]
    exact absurd start (not_spells_geckoFileStart_of_isBlank blank whole)
  · obtain ⟨name, bundle, cut, isName, isBundle⟩ := spells_seq.1 ending
    have folded := spells_word.1 isBundle
    cases name with
    | nil =>
      rw [List.nil_append] at cut
      subst cut
      have isFirst : Text.foldCase char = 'b' := (List.cons_eq_cons.1 folded).1
      rw [Text.foldCase_of_isBlank blank] at isFirst
      subst isFirst
      exact absurd blank (by decide)
    | cons first name =>
      obtain ⟨rfl, rfl⟩ := List.cons_eq_cons.1 cut
      have others := (List.forall_mem_cons.1 (spells_greedy.1 isName)).2
      exact .capture (.right (.seq (.greedy others) (spells_word.2 folded)))

/-- A line that stands alone behind an indent does so without it. -/
theorem StandsAlone.of_append (alone : StandsAlone (indent ++ line))
    (blank : ∀ char ∈ indent, Text.isBlank char = true) : StandsAlone line := by
  have behind := skipsBlanks_geckoEnd.behind blank (standsAlone_iff.1 alone)
  rw [Nat.zero_add] at behind
  exact standsAlone_iff.2 ((begins_shift unanchored_geckoEnd indent.length).1 behind)

/-- What the third form asks for in front of an at sign. -/
def beforeSign : List Pattern :=
  [atStart, Pattern.blanks, capture .method anything, optional argumentList]

theorem matchFront?_gecko_eq : geckoPattern.matchFront? line =
    (inTurn beforeSign (seq (either atStart (char '@')) geckoEnd)).run (Cursor.front line) found :=
  rfl

/-- The third form finds an at sign in a line that does not stand alone, or nothing. -/
theorem matchFront?_gecko_of_not_standsAlone (notAlone : ¬ StandsAlone line) :
    geckoPattern.matchFront? line = (indented signedBody).matchFront? line := by
  have signed : (indented signedBody).matchFront? line =
      (inTurn beforeSign (seq (char '@') geckoEnd)).run (Cursor.front line) found := rfl
  rw [matchFront?_gecko_eq, signed]
  refine run_inTurn.trans (Eq.trans (run_congr fun middle isMiddle => ?_) run_inTurn.symm)
  rw [run_seq, run_seq]
  refine run_either_of_none ?_
  by_cases atFront : middle.offset = 0
  -- in front of the line nothing was consumed, so that a file there would stand alone
  · obtain rfl := rest_of_mem_outcomes isMiddle atFront
    obtain ⟨_, rest, captures⟩ := middle
    obtain rfl := atFront
    exact run_eq_none_iff.2 fun begins => notAlone (standsAlone_iff.2 begins)
  · exact run_atStart_of_ne atFront

/-- The third form captures the same behind an indent if the line does not stand alone. -/
theorem matchFront?_gecko_append (notAlone : ¬ StandsAlone line)
    (blank : ∀ char ∈ indent, Text.isBlank char = true) :
    geckoPattern.matchFront? (indent ++ line) =
      (geckoPattern.matchFront? line).map (Captures.shift indent.length) := by
  rw [matchFront?_gecko_of_not_standsAlone notAlone,
    matchFront?_gecko_of_not_standsAlone fun alone => notAlone (alone.of_append blank)]
  exact matchFront?_signed_append blank line

end Leading

section Written

/-- The captured parts of a line are the same behind an indent. -/
theorem ofCaptures_shift (indent line : List Char) (captures : Captures) :
    WrittenFrame.ofCaptures (indent ++ line) (captures.shift indent.length) =
      WrittenFrame.ofCaptures line captures := by
  simp only [WrittenFrame.ofCaptures, Captures.text?_shift]

/-- The parts of a line are the same behind an indent if they are captured alike. -/
theorem written?_append_of_shift (same : grammar.pattern.matchFront? (indent ++ line) =
    (grammar.pattern.matchFront? line).map (Captures.shift indent.length)) :
    grammar.written? (indent ++ line) = grammar.written? line := by
  rw [written?, written?, same, Option.map_map]
  exact congrArg (Option.map · _)
    (funext fun captures => congrArg grammar.resolveEval (ofCaptures_shift indent line captures))

/-- An indent does not matter to a form, unless it is the third one and the line stands alone. -/
theorem written?_indent (blank : ∀ char ∈ indent, Text.isBlank char = true)
    (notAlone : grammar = .gecko → ¬ StandsAlone line) :
    grammar.written? (indent ++ line) = grammar.written? line := by
  refine written?_append_of_shift ?_
  cases grammar with
  | chrome => exact matchFront?_keyword rfl blank line
  | winjs => exact matchFront?_keyword rfl blank line
  | gecko => exact matchFront?_gecko_append (notAlone rfl) blank
  | node => exact matchFront?_keyword rfl blank line
  | jsc => exact matchFront?_jsc_append blank line

/-- What a form captures of a line lies in it. -/
theorem stop_le_of_matchFront? {captures : Captures} {part : Part} {span : Span}
    (matched : grammar.pattern.matchFront? line = some captures) (isSpan : span ∈ captures part) :
    span.stop ≤ line.length := by
  obtain ⟨after, isAfter, same⟩ := exists_of_run matched
  obtain rfl := Option.some.inj same
  obtain ⟨taken, spelled⟩ := spelled_of_mem_outcomes isAfter
  have whole := congrArg List.length spelled.rest
  have passed := spelled.offset
  simp only [Cursor.front, List.length_append] at whole passed
  rcases (capturesBetween_of_mem_outcomes isAfter).captured part span isSpan with nothing | between
  · cases nothing
  · have within := between.stop
    omega

/-- Blanks behind a line do not matter to any form. -/
theorem written?_trailing {blanks : List Char}
    (blank : ∀ char ∈ blanks, Text.isBlank char = true) :
    grammar.written? (line ++ blanks) = grammar.written? line := by
  have same : grammar.pattern.matchFront? (line ++ blanks) = grammar.pattern.matchFront? line :=
    (settled_pattern grammar).steady 0 line Captures.none blank
  rw [written?, written?, same]
  cases matched : grammar.pattern.matchFront? line with
  | none => rfl
  | some captures =>
    have parts (part : Part) : captures.text? part (line ++ blanks) = captures.text? part line := by
      unfold Captures.text?
      cases isSpan : captures part with
      | none => rfl
      | some span =>
        have early : (line ++ blanks).take span.stop = line.take span.stop :=
          List.take_append_of_le_length (stop_le_of_matchFront? matched isSpan)
        exact congrArg (fun text => some (text.drop span.start)) early
    simp only [Option.map_some, WrittenFrame.ofCaptures, parts]

end Written

end Grammar

end Retrace
