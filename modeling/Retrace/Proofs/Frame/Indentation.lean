import Retrace.Proofs.Frame.Bundles

/-!
# Indented stack lines

Blanks behind a line never matter to what is read of it. Blanks in front of it do not matter unless
the third form finds a file at the front of the line and no earlier form reads it. Behind an indent
such a line is read as if no file could stand at its front, or with the indent as a part of its file
if it is a bundle. `IgnoresIndent` says which lines are read alike nevertheless.
-/

namespace Retrace

namespace Grammar

open Pattern

variable {file line column indent : List Char}

/-- The parts of a line in the third form if no file may stand at its front. -/
def signed? (line : List Char) : Option WrittenFrame :=
  ((indented signedBody).matchFront? line).map fun captures =>
    (WrittenFrame.ofCaptures line captures).outOfNestedEval

/-- The parts of a line that no form with a keyword in front of the third one reads, if no file may
stand at its front. -/
def apart? (line : List Char) : Option WrittenFrame :=
  (signed? line).or ((Grammar.node.written? line).or (Grammar.jsc.written? line))

/-- A line that does not stand alone has an at sign in the third form. -/
theorem written?_gecko_of_not_standsAlone (notAlone : ¬ StandsAlone line) :
    Grammar.gecko.written? line = signed? line := by
  rw [signed?, ← matchFront?_gecko_of_not_standsAlone notAlone]
  rfl

/-- Behind an indent the third form finds the same at sign. -/
theorem signed?_append (blank : ∀ char ∈ indent, Text.isBlank char = true) (line : List Char) :
    signed? (indent ++ line) = signed? line := by
  rw [signed?, signed?, matchFront?_signed_append blank, Option.map_map]
  exact congrArg (Option.map · _) (funext fun captures =>
    congrArg WrittenFrame.outOfNestedEval (ofCaptures_shift indent line captures))

/-- An indent does not matter to any other form than the third one. -/
theorem written?_indent_of_ne (grammar : Grammar) (other : grammar ≠ .gecko)
    (blank : ∀ char ∈ indent, Text.isBlank char = true) :
    grammar.written? (indent ++ line) = grammar.written? line :=
  written?_indent blank fun same => absurd same other

/-- The forms in front of the third one do not read the line. -/
structure Unread (line : List Char) : Prop where
  chrome : Grammar.chrome.written? line = none
  winjs : Grammar.winjs.written? line = none

namespace Unread

variable (unread : Unread line)
include unread

/-- An indent does not matter to the forms with a keyword. -/
theorem append (blank : ∀ char ∈ indent, Text.isBlank char = true) : Unread (indent ++ line) where
  chrome := by
    rw [written?_indent_of_ne .chrome nofun blank]
    exact unread.chrome
  winjs := by
    rw [written?_indent_of_ne .winjs nofun blank]
    exact unread.winjs

/-- What the third form reads is what is read. -/
theorem findSome?_of_some {written : WrittenFrame}
    (inGecko : Grammar.gecko.written? line = some written) :
    all.findSome? (·.written? line) = some written := by
  rw [all, List.findSome?_cons, unread.chrome, List.findSome?_cons, unread.winjs,
    List.findSome?_cons, inGecko]

/-- A line that does not stand alone is read apart from its front. -/
theorem findSome?_of_not_standsAlone (notAlone : ¬ StandsAlone line) :
    all.findSome? (·.written? line) = apart? line := by
  rw [all, List.findSome?_cons, unread.chrome, List.findSome?_cons, unread.winjs,
    List.findSome?_cons, written?_gecko_of_not_standsAlone notAlone, apart?]
  cases signed? line with
  | some written => rfl
  | none =>
    rw [List.findSome?_cons]
    cases Grammar.node.written? line with
    | some written => rfl
    | none =>
      rw [List.findSome?_cons]
      cases Grammar.jsc.written? line <;> rfl

end Unread

/-- Behind an indent the same is read apart from the front of the line. -/
theorem apart?_append (blank : ∀ char ∈ indent, Text.isBlank char = true) (line : List Char) :
    apart? (indent ++ line) = apart? line := by
  rw [apart?, apart?, signed?_append blank, written?_indent_of_ne .node nofun blank,
    written?_indent_of_ne .jsc nofun blank]

/-- Without an at sign the third form finds no file behind one. -/
theorem signed?_eq_none (noSign : '@' ∉ line) : signed? line = none := by
  have nothing : (indented signedBody).matchFront? line = none := by
    refine run_eq_none fun taken rest cut spells => noSign ?_
    obtain ⟨atFront, _, rfl, -, spells⟩ := spells_seq.1 spells
    obtain ⟨skipped, _, rfl, -, spells⟩ := spells_seq.1 spells
    obtain ⟨method, _, rfl, -, spells⟩ := spells_seq.1 spells
    obtain ⟨arguments, _, rfl, -, spells⟩ := spells_seq.1 spells
    obtain ⟨sign, ending, rfl, isSign, -⟩ := spells_seq.1 spells
    obtain rfl := spells_char.1 isSign
    rw [cut]
    simp
  rw [signed?, nothing]
  rfl

/-- A file with its place and nothing in front of it. -/
def loneText (file line column : List Char) : List Char :=
  file ++ placeUpTo [] line column

/-- The parts of a file with its place that is no bundle. -/
structure IsLone (file line column : List Char) : Prop where
  noBundle : ¬ IsBundle file
  file : IsSide file
  line : IsNumber line
  column : IsNumber column

/-- What is read of a file with its place. -/
def loneParts (file line column : List Char) : WrittenFrame :=
  ⟨[], file, some line, some column⟩

namespace IsLone

variable (isLone : IsLone file line column)
include isLone

theorem not_mem {char : Char} (divides : char ∈ ['(', '@', ' ']) :
    char ∉ loneText file line column :=
  IsSigned.not_mem_reference ⟨isLone.file, isLone.file, isLone.line, isLone.column⟩ divides

theorem noSpace : ' ' ∉ loneText file line column :=
  isLone.not_mem (by decide)

theorem unspaced : ∀ char ∈ (loneText file line column).head?, Text.isBlank char = false := by
  intro char isHead
  obtain ⟨first, others, rfl⟩ := List.exists_cons_of_ne_nil isLone.file.nonempty
  obtain rfl := Option.some.inj isHead
  exact isLone.file.unspaced first List.mem_cons_self

/-- Only the file could be the bundle of the line. -/
theorem not_endsInBundle : ¬ EndsInBundle (loneText file line column) := by
  rintro ⟨name, place, cut, isBundle⟩
  have isPlace : IsPlace [line, column] [] (placeUpTo [] line column) :=
    ⟨by simp [isLone.line, isLone.column], [], by simp [placeUpTo], List.forall_mem_nil _⟩
  obtain ⟨late, rfl⟩ := isBundle.name.front_of_cut isPlace cut.symm
  have behind : place = late ++ placeUpTo [] line column := by
    simpa [loneText] using cut.symm
  have nothing : late = [] := by
    by_contra nonempty
    obtain ⟨taken, rest, placeCut, spells⟩ := isBundle.place
    obtain ⟨numbers, closing, few, noColon, isPlace⟩ := isPlace_of_spells .wanted .unclosed spells
    rw [← placeCut, behind] at isPlace
    exact not_isPlace nonempty few noColon isPlace
  rw [nothing, List.append_nil] at isLone
  exact isLone.noBundle isBundle.name

/-- The forms with a keyword do not read it. -/
theorem unread : Unread (loneText file line column) where
  chrome := written?_eq_none .chrome (matchFront?_eq_none_of_not_mem_space isLone.noSpace)
  winjs := written?_eq_none .winjs (matchFront?_eq_none_of_not_mem_space isLone.noSpace)

/-- If it stands alone, the third form reads it as it is. -/
theorem written?_gecko (alone : StandsAlone (loneText file line column)) :
    Grammar.gecko.written? (loneText file line column) = some (loneParts file line column) := by
  obtain ⟨taken, rest, cut, spells⟩ := standsAlone_iff.1 alone
  have known : IsKnown file := isKnown_of_spells_geckoEnd isLone.line isLone.column cut spells
  have atFront : geckoEnd.run
      ⟨0, loneText file line column, Captures.none.set .method ⟨0, 0⟩⟩ found =
      some (captureFile (Captures.none.set .method ⟨0, 0⟩) 0 file line column) :=
    (run_geckoEnd isLone.file.inLine isLone.line isLone.column).trans (if_pos known)
  have matched : geckoPattern.matchFront? (loneText file line column) =
      some (captureFile (Captures.none.set .method ⟨0, 0⟩) 0 file line column) := by
    rw [matchFront?_gecko isLone.unspaced]
    exact runSparing_of_some (run_afterMethod_atFront (isLone.not_mem (by decide)) atFront)
  have parts : WrittenFrame.ofCaptures (loneText file line column)
      (captureFile (Captures.none.set .method ⟨0, 0⟩) 0 file line column) =
      loneParts file line column :=
    ofCaptures_captureFile (List.nil_append _).symm rfl
  rw [written?_eq_some .gecko matched parts, resolveEval,
    outOfNestedEval_of_not_mem (isLone.file.not_mem (by decide))]

/-- The fifth form reads it as it is. -/
theorem written?_jsc :
    Grammar.jsc.written? (loneText file line column) = some (loneParts file line column) := by
  have unfolded : jscPattern.matchFront? (loneText file line column) =
      runGreedy Text.isBlank Captures.none
        (fun middle => (optional jscName).run middle fun after => jscEnd.run after found)
        0 (loneText file line column) := rfl
  have unnamed : jscName.run ⟨0, loneText file line column, Captures.none⟩
      (fun after => jscEnd.run after found) = none := by
    have noSign : '@' ∉ loneText file line column := isLone.not_mem (by decide)
    refine run_eq_none fun taken rest cut spells => noSign ?_
    obtain ⟨method, _, rfl, -, spells⟩ := spells_seq.1 spells
    obtain ⟨arguments, sign, rfl, -, isSign⟩ := spells_seq.1 spells
    obtain rfl := spells_char.1 isSign
    rw [cut]
    simp
  have matched : jscPattern.matchFront? (loneText file line column) =
      some (captureFile Captures.none 0 file line column) := by
    rw [unfolded, runGreedy_of_stop isLone.unspaced, run_optional_of_none unnamed]
    exact run_jscEnd isLone.file isLone.line isLone.column
  have parts : WrittenFrame.ofCaptures (loneText file line column)
      (captureFile Captures.none 0 file line column) = loneParts file line column :=
    ofCaptures_captureFile (List.nil_append _).symm rfl
  exact written?_eq_some .jsc matched parts

/-- Apart from the front of the line, the fifth form reads it. -/
theorem apart?_loneText :
    apart? (loneText file line column) = some (loneParts file line column) := by
  have noNode := written?_eq_none .node (matchFront?_eq_none_of_not_mem_space isLone.noSpace)
  rw [apart?, signed?_eq_none (isLone.not_mem (by decide)), noNode, isLone.written?_jsc]
  rfl

end IsLone

end Grammar

namespace Frame

open Grammar (StandsAlone EndsInBundle IsBundleLine IsEvaluated Unread IsLone apart? loneText)

variable {line blanks indent : List Char}

/-- What written parts are read as. -/
def ofWritten : Option WrittenFrame → Except Number.NumeralFault (Option Frame)
  | none => .ok none
  | some written => written.frame.map some

theorem ofLine_eq (line : List Char) :
    ofLine line = ofWritten (Grammar.all.findSome? (·.written? line)) := by
  rw [ofLine, readBy]
  cases Grammar.all.findSome? (·.written? line) <;> rfl

/-- Blanks behind a line do not matter. -/
theorem ofLine_trailing (line : List Char) (blank : ∀ char ∈ blanks, Text.isBlank char = true) :
    ofLine (line ++ blanks) = ofLine line := by
  simp only [ofLine_eq, Grammar.written?_trailing blank]

/-- A line that is read alike behind any indent. -/
inductive IgnoresIndent (line : List Char) : Prop where
  /-- The third form finds no file at the front of the line. -/
  | notAlone (notAlone : ¬ StandsAlone line) : IgnoresIndent line
  /-- A form in front of the third one reads the line. -/
  | isRead (isRead : ¬ Unread line) : IgnoresIndent line
  /-- The line is no bundle, and the same is read apart from its front. -/
  | apart (noBundle : ¬ EndsInBundle line) (same : ofWritten (apart? line) = ofLine line) :
      IgnoresIndent line
  /-- The line is a bundle of evaluated code that tells where the evaluation is. -/
  | evaluated {name place : List Char} (cut : line = name ++ place)
      (isBundle : IsBundleLine name place) (isEvaluated : IsEvaluated name) : IgnoresIndent line

/-- A file with its place that is no bundle ignores its indent. -/
theorem ignoresIndent_loneText {file number column : List Char}
    (isLone : IsLone file number column) : IgnoresIndent (loneText file number column) := by
  by_cases alone : StandsAlone (loneText file number column)
  · refine .apart isLone.not_endsInBundle ?_
    rw [ofLine_eq, isLone.unread.findSome?_of_some (isLone.written?_gecko alone),
      isLone.apart?_loneText]
  · exact .notAlone alone

/-- What is read behind an indent of a line that stands alone and is no bundle. -/
theorem ofLine_append_of_not_endsInBundle (blank : ∀ char ∈ indent, Text.isBlank char = true)
    (nonempty : indent ≠ []) (unread : Unread line) (noBundle : ¬ EndsInBundle line) :
    ofLine (indent ++ line) = ofWritten (apart? line) := by
  have notAlone : ¬ StandsAlone (indent ++ line) :=
    fun alone => noBundle ((Grammar.standsAlone_append_iff blank nonempty).1 alone)
  rw [ofLine_eq, (unread.append blank).findSome?_of_not_standsAlone notAlone,
    Grammar.apart?_append blank]

/-- What is read of a bundle, behind an indent or not. -/
theorem exists_ofLine_of_bundle {name place : List Char} (unread : Unread (name ++ place))
    (isBundle : IsBundleLine name place) : ∃ number column, ofLine (name ++ place) =
      ofWritten (some (WrittenFrame.mk [] name number column).outOfNestedEval) := by
  obtain ⟨number, column, inGecko⟩ := Grammar.written?_of_bundle isBundle
  exact ⟨number, column, by rw [ofLine_eq, unread.findSome?_of_some inGecko]⟩

/-- Blanks in front of a line that ignores its indent do not matter. -/
theorem IgnoresIndent.ofLine_append (ignores : IgnoresIndent line)
    (blank : ∀ char ∈ indent, Text.isBlank char = true) :
    ofLine (indent ++ line) = ofLine line := by
  by_cases unread : Unread line
  · cases ignores with
    | notAlone notAlone =>
      have same (grammar : Grammar) : grammar.written? (indent ++ line) = grammar.written? line :=
        Grammar.written?_indent blank fun _ => notAlone
      simp only [ofLine_eq, same]
    | isRead isRead => exact absurd unread isRead
    | apart noBundle same =>
      by_cases nonempty : indent = []
      · rw [nonempty, List.nil_append]
      · rw [ofLine_append_of_not_endsInBundle blank nonempty unread noBundle, same]
    | @evaluated name place cut isBundle isEvaluated =>
      subst cut
      have indented := unread.append blank
      rw [← List.append_assoc] at indented ⊢
      obtain ⟨_, _, alone⟩ := exists_ofLine_of_bundle unread isBundle
      obtain ⟨_, _, behind⟩ := exists_ofLine_of_bundle indented (isBundle.append blank)
      rw [alone, behind, Grammar.outOfNestedEval_append isEvaluated blank]
  · have chrome : Grammar.chrome.written? (indent ++ line) = Grammar.chrome.written? line :=
      Grammar.written?_indent_of_ne .chrome nofun blank
    have winjs : Grammar.winjs.written? (indent ++ line) = Grammar.winjs.written? line :=
      Grammar.written?_indent_of_ne .winjs nofun blank
    rw [ofLine_eq, ofLine_eq]
    refine congrArg ofWritten ?_
    cases inChrome : Grammar.chrome.written? line with
    | some written => simp only [Grammar.all, List.findSome?_cons, chrome, inChrome]
    | none =>
      cases inWinjs : Grammar.winjs.written? line with
      | some written =>
        simp only [Grammar.all, List.findSome?_cons, chrome, inChrome, winjs, inWinjs]
      | none => exact absurd ⟨inChrome, inWinjs⟩ unread

/-- A frame that is read has the file that is written. -/
theorem exists_of_ofWritten {written : WrittenFrame} {read : Option Frame}
    (isRead : ofWritten (some written) = .ok read) :
    ∃ frame : Frame, read = some frame ∧ frame.file.toList = written.file := by
  rw [ofWritten] at isRead
  cases isFrame : written.frame with
  | error fault =>
    rw [isFrame] at isRead
    cases isRead
  | ok frame =>
    rw [isFrame] at isRead
    cases isRead
    refine ⟨frame, rfl, ?_⟩
    rw [(WrittenFrame.frame_eq_ok isFrame).1, String.toList_ofList]

/-- If a line is read alike behind some indent, it ignores all of them. -/
theorem ignoresIndent_of_same (blank : ∀ char ∈ indent, Text.isBlank char = true)
    (nonempty : indent ≠ []) {read : Option Frame} (isRead : ofLine line = .ok read)
    (same : ofLine (indent ++ line) = ofLine line) : IgnoresIndent line := by
  by_cases unread : Unread line
  · by_cases endsInBundle : EndsInBundle line
    · obtain ⟨name, place, rfl, isBundle⟩ := endsInBundle
      by_cases evaluated : IsEvaluated name
      · exact .evaluated rfl isBundle evaluated
      · have indented := unread.append blank
        rw [← List.append_assoc] at indented same
        obtain ⟨_, _, alone⟩ := exists_ofLine_of_bundle unread isBundle
        obtain ⟨_, _, behind⟩ := exists_ofLine_of_bundle indented (isBundle.append blank)
        rw [Grammar.outOfNestedEval_of_not_isEvaluated evaluated] at alone
        obtain ⟨frame, rfl, isFile⟩ := exists_of_ofWritten (alone.symm.trans isRead)
        obtain ⟨_, ⟨⟩, isOther⟩ := exists_of_ofWritten (behind.symm.trans (same.trans isRead))
        exact absurd (isOther.symm.trans isFile)
          (Grammar.file_outOfNestedEval_append_ne blank nonempty)
    · refine .apart endsInBundle ?_
      rw [← ofLine_append_of_not_endsInBundle blank nonempty unread endsInBundle, same]
  · exact .isRead unread

/-- Blanks behind a line never matter. Blanks in front of a line whose numbers can be read do not
matter exactly if the line ignores its indent, whatever the blanks are. -/
theorem ofLine_padded (indent line blanks : List Char)
    (blankIndent : ∀ char ∈ indent, Text.isBlank char = true)
    (blank : ∀ char ∈ blanks, Text.isBlank char = true) :
    ofLine (line ++ blanks) = ofLine line ∧
    (IgnoresIndent line → ofLine (indent ++ (line ++ blanks)) = ofLine line) ∧
    ∀ read, ofLine line = .ok read → indent ≠ [] →
      ofLine (indent ++ (line ++ blanks)) = ofLine line → IgnoresIndent line := by
  have unpadded : ofLine (indent ++ (line ++ blanks)) = ofLine (indent ++ line) := by
    rw [← List.append_assoc, ofLine_trailing _ blank]
  refine ⟨ofLine_trailing line blank, fun ignores => ?_, fun read isRead nonempty same => ?_⟩
  · rw [unpadded, ignores.ofLine_append blankIndent]
  · rw [unpadded] at same
    exact ignoresIndent_of_same blankIndent nonempty isRead same

/-- A page with its place is read alike behind tabs and spaces. -/
theorem ofLine_padded_page :
    ofLine ("http://x/app.js:1:2".toList ++ " \t".toList) = ofLine "http://x/app.js:1:2".toList ∧
    ofLine ("\t  ".toList ++ ("http://x/app.js:1:2".toList ++ " \t".toList)) =
      ofLine "http://x/app.js:1:2".toList ∧
    IgnoresIndent "http://x/app.js:1:2".toList := by
  have isLone : IsLone "http://x/app.js".toList "1".toList "2".toList :=
    ⟨by decide, by decide, by decide, by decide⟩
  have padded := ofLine_padded "\t  ".toList "http://x/app.js:1:2".toList " \t".toList
    (Text.forall_mem_of_all (by decide)) (Text.forall_mem_of_all (by decide))
  have same := padded.2.1 (ignoresIndent_loneText isLone)
  have isRead : ofLine "http://x/app.js:1:2".toList =
      .ok (some ⟨none, "http://x/app.js", some 1, some 2⟩) := by rfl
  exact ⟨padded.1, same, padded.2.2 _ isRead (List.cons_ne_nil _ _) same⟩

/-- A bundle is read with its indent. -/
theorem ofLine_indented_bundle :
    ¬ ∀ indent line blanks : List Char, (∀ char ∈ indent, char = ' ' ∨ char = '\t') →
      (∀ char ∈ blanks, char = ' ' ∨ char = '\t') →
      ofLine (indent ++ (line ++ blanks)) = ofLine line := by
  intro always
  have same := always "  ".toList "app.bundle:1:2".toList [] (Text.forall_mem_of_all (by decide))
    (List.forall_mem_nil _)
  have indented : ofLine "  app.bundle:1:2".toList =
      .ok (some ⟨none, "  app.bundle", some 1, some 2⟩) := by rfl
  have alone : ofLine "app.bundle:1:2".toList =
      .ok (some ⟨none, "app.bundle", some 1, some 2⟩) := by rfl
  have equal := (indented.symm.trans same).trans alone
  exact absurd equal (by decide)

end Frame

end Retrace
