import Retrace.Conversion.Stack
import Retrace.Proofs.Frame.Shapes

/-!
# Error headers that are read as frames

The header of an error is offered to the grammars like every other line. The forms with a keyword
never take it, since the keyword would have to stand in front. The two forms without one take it
exactly if its message ends like a place or like a bundle, or names a page behind an at sign.
-/

namespace Retrace

namespace Grammar

open Pattern

variable {line : List Char}

/-- What makes a frame of a line that begins like an error's header. -/
inductive ReadsAsFrame (line : List Char) : Prop where
  /-- The line ends in a number behind a colon. -/
  | number {front digits blanks : List Char} (cut : line = front ++ ':' :: (digits ++ blanks))
      (isNumber : IsNumber digits) (blank : ∀ char ∈ blanks, Text.isBlank char = true)
  /-- The line ends in the name of a bundle. -/
  | bundle {front name blanks : List Char} (cut : line = front ++ (name ++ blanks))
      (folded : name.map Text.foldCase = "bundle".toList)
      (blank : ∀ char ∈ blanks, Text.isBlank char = true)
  /-- A page stands behind an at sign. -/
  | page {front opening path : List Char} {wanted : String}
      (cut : line = front ++ '@' :: (opening ++ path)) (isOne : wanted ∈ pageWords)
      (folded : opening.map Text.foldCase = wanted.toList)

/-- A place with a number ends in one. -/
theorem ReadsAsFrame.of_isPlace {front place : List Char} {numbers : List (List Char)}
    (isPlace : IsPlace numbers [] place) (some : numbers ≠ []) : ReadsAsFrame (front ++ place) := by
  obtain ⟨areNumbers, blanks, rfl, blank⟩ := isPlace
  obtain rfl | ⟨others, digits, rfl⟩ := List.eq_nil_or_concat' numbers
  · exact absurd rfl some
  · have cut : front ++ ((others ++ [digits]).flatMap (':' :: ·) ++ ([] ++ blanks)) =
        (front ++ others.flatMap (':' :: ·)) ++ ':' :: (digits ++ blanks) := by simp
    exact .number cut (areNumbers digits (by simp)) blank

/-- The keyword of a call site does not stand in front of another letter. -/
theorem not_spells_atKeyword {offset : Nat} {first : Char} {taken rest text : List Char}
    (noBlank : Text.isBlank first = false) (other : Text.foldCase first ≠ 'a')
    (cut : taken ++ rest = first :: text) : ¬ atKeyword.Spells offset taken rest := by
  intro spells
  obtain ⟨blanks, letters, rfl, blank, folded⟩ := exists_of_spells_atKeyword spells
  cases blanks with
  | nil =>
    cases letters with
    | nil => cases folded
    | cons letter letters =>
      obtain ⟨rfl, -⟩ := List.cons_eq_cons.1 cut
      exact other (List.cons_eq_cons.1 folded).1
  | cons char blanks =>
    obtain ⟨rfl, -⟩ := List.cons_eq_cons.1 cut
    rw [blank char List.mem_cons_self] at noBlank
    cases noBlank

/-- A line that the third form takes, and that does not begin as one of its pages, has a page behind
an at sign, or ends in a bundle with or without a place. -/
theorem readsAsFrame_of_gecko {first : Char} {text taken rest : List Char}
    (other : ∀ wanted ∈ pageWords, wanted.toList.head? ≠ some (Text.foldCase first))
    (cut : first :: text = taken ++ rest) (spells : geckoPattern.Spells 0 taken rest) :
    ReadsAsFrame (first :: text) := by
  obtain ⟨front, behind, same, starts, known⟩ := shape_of_spells_gecko spells
  rw [cut, same]
  rw [← cut] at same
  rcases known with ⟨opening, path, rfl, start⟩ | ⟨name, bundle, place, rfl, -, folded, isPlace⟩
  · rcases starts with rfl | ⟨before, rfl⟩
    · exact absurd start (not_spells_geckoFileStart other same.symm)
    · obtain ⟨wanted, isOne, word, more, rfl, folded⟩ := exists_of_spells_geckoFileStart start
      have cut : (before ++ ['@']) ++ ((word ++ more) ++ path) =
          before ++ '@' :: (word ++ (more ++ path)) := by simp
      exact .page cut isOne folded
  · obtain ⟨numbers, isPlace⟩ := isPlace
    by_cases none : numbers = []
    · obtain ⟨-, blanks, rfl, blank⟩ := isPlace
      subst none
      have cut : front ++ (name ++ (bundle ++ ([].flatMap (':' :: ·) ++ ([] ++ blanks)))) =
          (front ++ name) ++ (bundle ++ blanks) := by simp
      exact .bundle cut folded blank
    · rw [← List.append_assoc, ← List.append_assoc]
      exact .of_isPlace isPlace none

/-- A line behind which a file of the third form ends, at the front or behind an at sign. -/
theorem spells_gecko {name sign file blanksBehind : List Char}
    (inLine : ∀ char ∈ name, isInLine char = true)
    (anchored : (either atStart (char '@')).Spells name.length sign (file ++ blanksBehind))
    (known : (either (Pattern.all [geckoFileStart, anything])
      (Pattern.all [greedy (· ≠ '@'), word "bundle"])).Spells (name.length + sign.length) file
        blanksBehind)
    (blank : ∀ char ∈ blanksBehind, Text.isBlank char = true) :
    geckoPattern.Spells 0 (name ++ (sign ++ (file ++ blanksBehind))) [] := by
  refine spells_all_cons.2 ⟨[], _, rfl, .atStart, ?_⟩
  refine spells_all_cons.2 ⟨[], _, rfl, .greedy (by simp), ?_⟩
  refine spells_all_cons.2 ⟨name, _, rfl, .capture (.sparing inLine), ?_⟩
  refine spells_all_cons.2 ⟨[], _, rfl, spells_optional.2 (.inr rfl), ?_⟩
  refine spells_all_cons.2 ⟨sign, _, rfl, by simpa using anchored, ?_⟩
  refine spells_all_cons.2 ⟨file, _, rfl, .capture (by simpa using known), ?_⟩
  refine spells_all_cons.2 ⟨[], _, rfl, spells_optional.2 (.inr rfl), ?_⟩
  refine spells_all_cons.2 ⟨[], _, rfl, spells_optional.2 (.inr rfl), ?_⟩
  exact spells_lineEnd.2 ⟨blank, .inl rfl⟩

/-- The third form takes a line that ends in a bundle. -/
theorem spells_gecko_of_bundle {front name blanks : List Char}
    (inLine : ∀ char ∈ front, isInLine char = true)
    (folded : name.map Text.foldCase = "bundle".toList)
    (blank : ∀ char ∈ blanks, Text.isBlank char = true) :
    geckoPattern.Spells 0 (front ++ (name ++ blanks)) [] := by
  have known {before : List Char} {offset : Nat} (noSign : '@' ∉ before) :
      (either (Pattern.all [geckoFileStart, anything])
        (Pattern.all [greedy (· ≠ '@'), word "bundle"])).Spells offset (before ++ name) blanks := by
    refine .right (spells_all_cons.2 ⟨before, name, rfl, .greedy fun char isIn => ?_, ?_⟩)
    · exact decide_eq_true fun same => noSign (same ▸ isIn)
    · exact spells_word.2 folded
  by_cases sign : '@' ∈ front
  · obtain ⟨before, behind, rfl, noSign⟩ := Text.exists_last_of_mem sign
    have inBefore := (List.forall_mem_append.1 inLine).1
    have spells := spells_gecko inBefore (.right (spells_char.2 rfl)) (known noSign) blank
    simpa using spells
  · have none : ∀ char ∈ ([] : List Char), isInLine char = true := by simp
    have spells := spells_gecko none (.left .atStart) (known sign) blank
    simpa using spells

/-- The fifth form takes a line that ends in a number. -/
theorem spells_jsc_of_number {first : Char} {front digits blanks : List Char}
    (noBlank : Text.isBlank first = false) (inLine : ∀ char ∈ front, isInLine char = true)
    (isNumber : IsNumber digits) (blank : ∀ char ∈ blanks, Text.isBlank char = true) :
    jscPattern.Spells 0 (first :: front ++ (':' :: digits ++ blanks)) [] := by
  refine spells_all_cons.2 ⟨[], _, rfl, .atStart, ?_⟩
  refine spells_all_cons.2 ⟨[], _, rfl, .greedy (by simp), ?_⟩
  refine spells_all_cons.2 ⟨[], _, rfl, spells_optional.2 (.inr rfl), ?_⟩
  refine spells_all_cons.2 ⟨first :: front, _, rfl, .capture (spells_all_cons.2 ⟨[first], front, rfl,
    .one (by simp [noBlank]), .sparing inLine⟩), ?_⟩
  refine spells_all_cons.2 ⟨':' :: digits, _, rfl, spells_numberPart.2 ⟨digits, rfl, isNumber⟩, ?_⟩
  refine spells_all_cons.2 ⟨[], _, rfl, spells_optional.2 (.inr rfl), ?_⟩
  exact spells_lineEnd.2 ⟨blank, .inl rfl⟩

/-- What makes a frame of a line has some form take it, unless a blank or a colon comes first. -/
theorem ReadsAsFrame.exists_spells {first : Char} {text : List Char}
    (noBlank : Text.isBlank first = false) (noColon : first ≠ ':') (inLine : '\n' ∉ first :: text)
    (reads : ReadsAsFrame (first :: text)) :
    ∃ grammar : Grammar, grammar.pattern.Spells 0 (first :: text) [] := by
  have fits {part : List Char} (inside : part <:+: first :: text) :
      ∀ char ∈ part, isInLine char = true := by
    intro char isIn
    refine decide_eq_true fun feed => ?_
    subst feed
    exact inLine (inside.subset isIn)
  cases reads with
  | @number front digits blanks cut isNumber blank =>
    cases front with
    | nil => exact absurd (List.cons_eq_cons.1 cut).1 noColon
    | cons letter front =>
      obtain ⟨rfl, rfl⟩ := List.cons_eq_cons.1 cut
      have inFront := fits (List.infix_cons (List.prefix_append front _).isInfix)
      exact ⟨.jsc, spells_jsc_of_number noBlank inFront isNumber blank⟩
  | @bundle front name blanks cut folded blank =>
    rw [cut] at fits ⊢
    exact ⟨.gecko, spells_gecko_of_bundle (fits (List.prefix_append front _).isInfix) folded blank⟩
  | @page front opening path wanted cut isOne folded =>
    rw [cut] at fits ⊢
    have isPath : path <:+: front ++ '@' :: (opening ++ path) :=
      ⟨front ++ '@' :: opening, [], by simp⟩
    have file : (Pattern.all [geckoFileStart, anything]).Spells (front.length + ['@'].length)
        (opening ++ path) [] :=
      spells_all_cons.2 ⟨opening, path, rfl, spells_geckoFileStart isOne folded, .sparing (fits isPath)⟩
    have sign : (either atStart (char '@')).Spells front.length ['@'] (opening ++ path ++ []) :=
      .right (spells_char.2 rfl)
    have spells := spells_gecko (fits (List.prefix_append front _).isInfix) sign (.left file)
      (by simp)
    rw [List.append_nil] at spells
    exact ⟨.gecko, spells⟩

/-- A line that some form takes is one that reads as a frame, if its first letter begins neither the
keyword of a call site nor a page. -/
theorem readsAsFrame_of_spells {grammar : Grammar} {first : Char} {text taken rest : List Char}
    (noBlank : Text.isBlank first = false) (noKeyword : Text.foldCase first ≠ 'a')
    (noPage : ∀ wanted ∈ pageWords, wanted.toList.head? ≠ some (Text.foldCase first))
    (cut : first :: text = taken ++ rest) (spells : grammar.pattern.Spells 0 taken rest) :
    ReadsAsFrame (first :: text) := by
  have keyless {others : Pattern} (spells : (seq atKeyword others).Spells 0 taken rest) : False := by
    obtain ⟨front, back, rfl, keyword, -⟩ := spells_seq.1 spells
    rw [List.append_assoc] at cut
    exact not_spells_atKeyword noBlank noKeyword cut.symm keyword
  cases grammar with
  | chrome => exact (keyless spells).elim
  | winjs => exact (keyless spells).elim
  | gecko => exact readsAsFrame_of_gecko noPage cut spells
  | node => exact (keyless spells).elim
  | jsc =>
    obtain ⟨front, place, numbers, same, some, isPlace⟩ := shape_of_spells_jsc spells
    rw [cut, same]
    exact .of_isPlace isPlace some

end Grammar

namespace Frame

open Grammar

/-- A line is no frame exactly if none of the grammars matches it. -/
theorem ofLine_eq_none_iff {line : List Char} :
    ofLine line = .ok none ↔ ∀ grammar : Grammar, grammar.pattern.matchFront? line = none := by
  have complete : ∀ grammar : Grammar, grammar ∈ Grammar.all := by
    rintro (_ | _ | _ | _ | _) <;> decide
  rw [ofLine, readBy]
  cases first : Grammar.all.findSome? (·.written? line) with
  | none =>
    rw [List.findSome?_eq_none_iff] at first
    refine iff_of_true rfl fun grammar => ?_
    simpa [written?] using first grammar (complete grammar)
  | some written =>
    obtain ⟨grammar, -, matched⟩ := List.exists_of_findSome?_eq_some first
    refine iff_of_false ?_ fun none => ?_
    · cases parts : written.frame with
      | error fault => simp [parts, Except.map]
      | ok frame => simp [parts, Except.map]
    · rw [written?, none grammar] at matched
      cases matched

/-- The header of an error is skipped exactly if its message neither ends like a place or a bundle
nor names a page behind an at sign. -/
theorem ofLine_header_eq_none_iff {header : List Char} (marked : headerMark.toList <+: header)
    (inLine : '\n' ∉ header) : ofLine header = .ok none ↔ ¬ ReadsAsFrame header := by
  obtain ⟨text, rfl⟩ : ∃ text, header = 'E' :: text := by
    obtain ⟨message, rfl⟩ := marked
    exact ⟨"rror:".toList ++ message, rfl⟩
  rw [ofLine_eq_none_iff]
  constructor
  · intro skipped reads
    obtain ⟨grammar, spells⟩ := reads.exists_spells (by decide) (by decide) inLine
    have matched := Pattern.matchFront?_isSome_iff.2 ⟨_, [], (List.append_nil _).symm, spells⟩
    rw [skipped grammar] at matched
    cases matched
  · intro noFrame grammar
    rw [← Option.not_isSome_iff_eq_none, Pattern.matchFront?_isSome_iff]
    rintro ⟨taken, rest, cut, spells⟩
    exact noFrame (readsAsFrame_of_spells (by decide) (by decide) (by decide) cut spells)

end Frame

end Retrace
