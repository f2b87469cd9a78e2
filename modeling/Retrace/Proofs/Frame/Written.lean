import Retrace.Frame.Reader
import Retrace.Proofs.Frame.Places
import Retrace.Proofs.Text.Cuts

/-!
# Reading a written call site

The lemmas here follow a run through the parts that the forms with a keyword have in common: the
keyword behind the indent, a method in front of a parenthesis, and a file in front of its place. A
method ends at the only opening parenthesis, and a file where no more than a line and a column are
left, wherever else a form could stop.
-/

namespace Retrace.Grammar

open Pattern

variable {offset : Nat} {captures : Captures}

/-- The file and both numbers of a place, captured as they are written from an offset on. -/
def captureFile (captures : Captures) (offset : Nat) (file line column : List Char) : Captures :=
  ((captures.set .file ⟨offset, offset + file.length⟩).set .line
    ⟨offset + file.length + 1, offset + file.length + 1 + line.length⟩).set .column
    ⟨offset + file.length + line.length + 2,
      offset + file.length + line.length + 2 + column.length⟩

section File

variable {file line column closing : List Char} {behind : Pattern}

/-- A file is captured up to its place, whichever beginning of it the form knows. -/
theorem run_file {start lineNumber : Pattern} (silent : start.IsSilent) (asks : AsksLine lineNumber)
    (ends : EndsPlace behind closing)
    (inLine : ∀ char ∈ file, isInLine char = true) (isLine : IsNumber line)
    (isColumn : IsNumber column)
    (begins : ∃ opening rest, file ++ placeUpTo closing line column = opening ++ rest ∧
      start.Spells offset opening rest)
    (inside : ∀ opening rest, file ++ placeUpTo closing line column = opening ++ rest →
      start.Spells offset opening rest → opening <+: file) :
    (seq (capture .file (seq start anything)) (seq lineNumber behind)).run
        ⟨offset, file ++ placeUpTo closing line column, captures⟩ found =
      some (captureFile captures offset file line column) := by
  have unfolded : (seq (capture .file (seq start anything)) (seq lineNumber behind)).run
        ⟨offset, file ++ placeUpTo closing line column, captures⟩ found =
      start.run ⟨offset, file ++ placeUpTo closing line column, captures⟩ fun middle =>
        runSparing isInLine middle.captures
          (fun after => (seq lineNumber behind).run (after.capture .file offset) found)
          middle.offset middle.rest := rfl
  rw [unfolded]
  have extended : ∀ opening rest, file ++ placeUpTo closing line column = opening ++ rest →
      opening <+: file →
      runSparing isInLine captures
          (fun after => (seq lineNumber behind).run (after.capture .file offset) found)
          (offset + opening.length) rest =
        some (captureFile captures offset file line column) := by
    rintro opening rest cut ⟨path, rfl⟩
    rw [List.append_assoc] at cut
    obtain rfl := List.append_cancel_left cut
    have others := (List.forall_mem_append.1 inLine).2
    refine runSparing_eq_some others ?_ ?_
    · intro front late _ nonempty
      exact run_place_eq_none asks ends nonempty
    · have passed : offset + opening.length + path.length = offset + (opening ++ path).length := by
        rw [List.length_append, Nat.add_assoc]
      rw [passed]
      exact run_place asks ends isLine isColumn
  apply run_eq_some_of_isSilent silent
  · intro opening rest cut spells
    exact .inr (extended opening rest cut (inside opening rest cut spells))
  · obtain ⟨opening, rest, cut, spells⟩ := begins
    exact ⟨opening, rest, cut, spells, extended opening rest cut (inside opening rest cut spells)⟩

/-- The parts of a line are read as they are written from the offset of the file on. -/
theorem ofCaptures_captureFile {text front : List Char}
    (cut : text = front ++ (file ++ placeUpTo closing line column)) (starts : offset = front.length) :
    WrittenFrame.ofCaptures text (captureFile captures offset file line column) =
      ⟨(captures.text? .method text).getD [], file, some line, some column⟩ := by
  have isFile : Span.of ⟨offset, offset + file.length⟩ text = file :=
    Span.of_eq cut starts (by rw [starts])
  have isLine : Span.of ⟨offset + file.length + 1, offset + file.length + 1 + line.length⟩ text =
      line := by
    have behind : text = (front ++ file ++ [':']) ++ (line ++ ':' :: (column ++ closing)) := by
      rw [cut]
      simp [placeUpTo]
    refine Span.of_eq behind ?_ ?_ <;> simp [starts, Nat.add_assoc]
  have isColumn : Span.of ⟨offset + file.length + line.length + 2,
      offset + file.length + line.length + 2 + column.length⟩ text = column := by
    have behind : text = (front ++ file ++ ':' :: (line ++ [':'])) ++ (column ++ closing) := by
      rw [cut]
      simp [placeUpTo]
    refine Span.of_eq behind ?_ ?_ <;> simp [starts] <;> omega
  simp [WrittenFrame.ofCaptures, Captures.text?, captureFile, Captures.set, isFile, isLine, isColumn]

end File

section Grammar

variable (grammar : Grammar) {text : List Char} {written : WrittenFrame}

/-- A form reads no parts of a line that it does not match. -/
theorem written?_eq_none (nothing : grammar.pattern.matchFront? text = none) :
    grammar.written? text = none := by
  rw [written?, nothing]
  rfl

/-- A form reads the parts that it captures, out of the evaluated code that it knows of. -/
theorem written?_eq_some (matched : grammar.pattern.matchFront? text = some captures)
    (parts : WrittenFrame.ofCaptures text captures = written) :
    grammar.written? text = some (grammar.resolveEval written) := by
  rw [written?, matched, Option.map_some, parts]

end Grammar

/-- A word does not begin with a blank unless it is written so. -/
theorem run_word_of_blank {α : Type} {next : Continuation α} {char : Char} {text : List Char}
    (blank : Text.isBlank char = true) :
    (word "at ").run ⟨offset, char :: text, captures⟩ next = none := by
  apply run_eq_none
  intro taken rest cut spells
  have folded := spells_word.1 spells
  cases taken with
  | nil => cases folded
  | cons first taken =>
    obtain ⟨rfl, -⟩ := List.cons_eq_cons.1 cut
    rw [List.map_cons, Text.foldCase_of_isBlank blank] at folded
    obtain ⟨rfl, -⟩ := List.cons_eq_cons.1 folded
    revert blank
    decide

/-- The keyword stands behind the indent of a written frame. -/
theorem run_atKeyword {α : Type} {next : Continuation α} {rest : List Char} :
    atKeyword.run ⟨0, "    at ".toList ++ rest, captures⟩ next = next ⟨7, rest, captures⟩ := by
  have skipped : runGreedy Text.isBlank captures (fun middle => (word "at ").run middle next) 0
      ("    ".toList ++ ("at ".toList ++ rest)) =
        (word "at ").run ⟨4, "at ".toList ++ rest, captures⟩ next := by
    apply runGreedy_of_refused (Text.forall_mem_of_all (by decide))
    · rintro _ ⟨⟩
      decide
    · intro offset char text blank
      exact run_word_of_blank blank
  exact skipped

section Method

variable {method rest : List Char} {tail : Pattern} {result : Captures}

/-- An opening parenthesis, with or without a space in front, begins a text only as it stands. -/
theorem opens_of_spells {taken rest : List Char}
    (spells : (seq (optional (char ' ')) (seq (char '(') tail)).Spells offset taken rest) :
    ∃ more, taken ++ rest = '(' :: more ∨ taken ++ rest = ' ' :: '(' :: more := by
  obtain ⟨_, _, rfl, space, behind⟩ := spells_seq.1 spells
  obtain ⟨_, more, rfl, parenthesis, -⟩ := spells_seq.1 behind
  obtain rfl := spells_char.1 parenthesis
  rcases spells_optional.1 space with space | rfl
  · obtain rfl := spells_char.1 space
    exact ⟨more ++ rest, .inr rfl⟩
  · exact ⟨more ++ rest, .inl rfl⟩

/-- A method is captured up to the only opening parenthesis and one space before it. -/
theorem run_methodBeforeParenthesis (noParenthesis : '(' ∉ method)
    (inLine : ∀ char ∈ method, isInLine char = true)
    (here : tail.run ⟨offset + method.length + 2, rest,
      captures.set .method ⟨offset, offset + method.length⟩⟩ found = some result) :
    (seq (capture .method anything) (seq (optional (char ' ')) (seq (char '(') tail))).run
      ⟨offset, method ++ ' ' :: '(' :: rest, captures⟩ found = some result := by
  have captured : runSparing isInLine captures
      (fun after => (seq (optional (char ' ')) (seq (char '(') tail)).run
        (after.capture .method offset) found) offset (method ++ ' ' :: '(' :: rest) =
      some result := by
    refine runSparing_eq_some inLine ?_ ?_
    · rintro front late rfl nonempty
      refine run_eq_none fun taken behind cut spells => ?_
      obtain ⟨first, late, rfl⟩ := List.exists_cons_of_ne_nil nonempty
      obtain ⟨more, opened | opened⟩ := opens_of_spells spells
      · rw [← cut] at opened
        obtain ⟨rfl, -⟩ := List.cons_eq_cons.1 opened
        simp at noParenthesis
      · rw [← cut] at opened
        have behind := (List.cons_eq_cons.1 opened).2
        cases late with
        | nil => cases behind
        | cons second late =>
          obtain ⟨rfl, -⟩ := List.cons_eq_cons.1 behind
          simp at noParenthesis
    · refine run_optional_of_some (run_char.trans ?_)
      rw [run_seq]
      exact run_char.trans here
  exact captured

/-- The mark of an object without a name does not reach over the end of a method. -/
theorem mark_inside {mark behind : List Char}
    (cut : mark ++ behind = method ++ ' ' :: '(' :: rest)
    (folded : mark.map Text.foldCase = "[object object]".toList) : mark <+: method := by
  rcases Text.prefix_cases cut with inside | rfl | ⟨further, rfl⟩
  · exact inside
  · have last := congrArg List.getLast? folded
    rw [List.map_append, List.map_singleton, List.getLast?_concat] at last
    cases last
  · have parenthesis : '(' ∉ method ++ [' ', '('] ++ further :=
      Text.not_mem_of_map_foldCase folded rfl (by decide)
    simp at parenthesis

/-- A method behind which nothing longer can follow is captured as a whole, whether it begins with
the mark of an object without a name or not. -/
theorem run_marked {α : Type} {accepts : Char → Bool} {next : Continuation α} {result : α}
    (nonempty : method ≠ []) (accepted : ∀ char ∈ method, accepts char = true)
    (longer : ∀ more behind, ' ' :: '(' :: rest = more ++ behind → more ≠ [] →
      next ⟨offset + method.length + more.length, behind, captures⟩ = none)
    (here : next ⟨offset + method.length, ' ' :: '(' :: rest, captures⟩ = some result) :
    objectMark.run ⟨offset, method ++ ' ' :: '(' :: rest, captures⟩
      (fun middle => (greedyOne accepts).run middle next) = some result := by
  have wholeName : ∀ front late, method = front ++ late → late ≠ [] →
      (greedyOne accepts).run ⟨offset + front.length, late ++ ' ' :: '(' :: rest, captures⟩ next =
        some result := by
    rintro front late rfl some
    have passed : offset + (front ++ late).length = offset + front.length + late.length := by
      rw [List.length_append, Nat.add_assoc]
    rw [passed] at here longer
    exact run_greedyOne_eq_some some (List.forall_mem_append.1 accepted).2
      (fun more behind cut some _ => longer more behind cut some) here
  have nothingLeft : (greedyOne accepts).run
      ⟨offset + method.length, ' ' :: '(' :: rest, captures⟩ next = none := by
    apply run_eq_none_of_refused
    intro after found
    have silent : (greedyOne accepts).IsSilent := fun _ => rfl
    obtain ⟨more, behind, cut, spells, rfl⟩ := mem_outcomes_of_isSilent silent found
    exact longer more behind cut (spells_greedyOne.1 spells).1
  apply run_eq_some_of_isSilent (by intro part; simp [objectMark, Pattern.optional, setsPart])
  · intro mark behind cut spells
    rcases spells_optional.1 spells with word | rfl
    · obtain ⟨late, rfl⟩ := mark_inside cut.symm (spells_word.1 word)
      rw [List.append_assoc] at cut
      obtain rfl := List.append_cancel_left cut
      by_cases empty : late = []
      · subst empty
        rw [List.append_nil] at nothingLeft
        exact .inl nothingLeft
      · exact .inr (wholeName mark late rfl empty)
    · obtain rfl : method ++ ' ' :: '(' :: rest = behind := cut
      exact .inr (wholeName [] method rfl nonempty)
  · exact ⟨[], _, rfl, spells_optional.2 (.inr rfl), wholeName [] method rfl nonempty⟩

/-- A method in front of a parenthesis is captured with all its spaces, whatever else a form looks
for behind a space and an opening bracket. -/
theorem run_method {accepts : Char → Bool} (nameEnd : Pattern) (nonempty : method ≠ [])
    (accepted : ∀ char ∈ method, accepts char = true) (noSpace : ' ' ∉ rest)
    (leftOut : ∀ {offset : Nat} {text : List Char} {captures : Captures}
      {next : Continuation Captures}, (∀ more, text ≠ ' ' :: '[' :: more) →
      nameEnd.run ⟨offset, text, captures⟩ next = next ⟨offset, text, captures⟩)
    (here : tail.run ⟨offset + method.length + 1, '(' :: rest,
      captures.set .method ⟨offset, offset + method.length⟩⟩ found = some result) :
    (seq (optional (seq (capture .method (seq objectMark (seq (greedyOne accepts) nameEnd)))
      (char ' '))) tail).run ⟨offset, method ++ ' ' :: '(' :: rest, captures⟩ found =
        some result := by
  have named : objectMark.run ⟨offset, method ++ ' ' :: '(' :: rest, captures⟩
      (fun middle => (greedyOne accepts).run middle fun last => nameEnd.run last fun after =>
        (char ' ').run (after.capture .method offset) fun behind => tail.run behind found) =
        some result := by
    refine run_marked nonempty accepted ?_ ?_
    · intro more behind cut some
      have absent : ' ' ∉ behind := by
        obtain ⟨first, more, rfl⟩ := List.exists_cons_of_ne_nil some
        have isEnd : '(' :: rest = more ++ behind := (List.cons_eq_cons.1 cut).2
        intro isIn
        have inRest : ' ' ∈ '(' :: rest := isEnd ▸ List.mem_append_right more isIn
        simp [noSpace] at inRest
      have noBracket : ∀ more, behind ≠ ' ' :: '[' :: more := by
        rintro more rfl
        exact absent List.mem_cons_self
      rw [leftOut noBracket]
      exact run_char_of_not_mem absent
    · rw [leftOut (by simp)]
      exact run_char.trans here
  exact run_optional_of_some named

end Method

end Retrace.Grammar
