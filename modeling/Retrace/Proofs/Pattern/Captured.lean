import Retrace.Proofs.Pattern.Spelling

/-!
# What a pattern captures

A part that a pattern does not mention keeps its capture, so a pattern that captures nothing is told
by what it spells. What is captured is a contiguous part of the text, and `CapturesOnly` says which
characters it can have: `holds_of_mem_outcomes` is the invariant that one pattern keeps, and the two
lemmas behind it say what follows for a match in front of a text and for one anywhere in it.
-/

namespace Retrace.Pattern

variable {captures : Captures} {offset : Nat} {text : List Char}

/-- What every round of a repetition keeps, the whole repetition keeps. -/
theorem manyOutcomes_keep {step : Cursor → List Cursor} {good : Cursor → Prop}
    (keeps : ∀ {before after : Cursor}, after ∈ step before → good before → good after)
    {count : Nat} {before after : Cursor} (found : after ∈ manyOutcomes step count before)
    (holds : good before) : good after := by
  induction count generalizing before with
  | zero =>
    rw [List.mem_singleton.1 found]
    exact holds
  | succ count inductionHypothesis =>
    rw [manyOutcomes, List.mem_append, List.mem_flatMap, List.mem_singleton] at found
    rcases found with ⟨middle, once, others⟩ | rfl
    · exact inductionHypothesis others (keeps once holds)
    · exact holds

/-- The pattern captures a part somewhere. -/
def setsPart (part : Part) : Pattern → Bool
  | .seq first second => first.setsPart part || second.setsPart part
  | .either first second => first.setsPart part || second.setsPart part
  | .many body => body.setsPart part
  | .capture other body => other = part || body.setsPart part
  | _ => false

/-- The pattern captures nothing. -/
def IsSilent (pattern : Pattern) : Prop :=
  ∀ part, pattern.setsPart part = false

@[simp] theorem setsPart_all (part : Part) (patterns : List Pattern) :
    (all patterns).setsPart part = patterns.any (setsPart part) := by
  induction patterns with
  | nil => rfl
  | cons first others inductionHypothesis =>
    cases others with
    | nil => simp [all]
    | cons second others =>
      have unfolded : (all (first :: second :: others)).setsPart part =
          (first.setsPart part || (all (second :: others)).setsPart part) := rfl
      rw [unfolded, inductionHypothesis]
      rfl

@[simp] theorem setsPart_word (part : Part) (wanted : String) :
    (word wanted).setsPart part = false := by
  rw [word, setsPart_all]
  simp [setsPart]

/-- A part that a pattern does not capture stays as it was. -/
theorem captures_of_mem_outcomes {pattern : Pattern} {part : Part}
    (untouched : pattern.setsPart part = false) {before after : Cursor}
    (found : after ∈ pattern.outcomes before) : after.captures part = before.captures part := by
  induction pattern generalizing before after with
  | empty => rw [List.mem_singleton.1 found]
  | one accepts =>
    rw [outcomes] at found
    split at found
    next => cases found
    next =>
      split at found
      next => rw [List.mem_singleton.1 found, Cursor.step]
      next => cases found
  | atStart =>
    rw [outcomes] at found
    split at found
    next => rw [List.mem_singleton.1 found]
    next => cases found
  | atEnd =>
    rw [outcomes] at found
    split at found
    next => rw [List.mem_singleton.1 found]
    next => cases found
  | seq first second firstHypothesis secondHypothesis =>
    obtain ⟨one, other⟩ := Bool.or_eq_false_iff.1 untouched
    obtain ⟨middle, before, behind⟩ := List.mem_flatMap.1 found
    rw [secondHypothesis other behind, firstHypothesis one before]
  | either first second firstHypothesis secondHypothesis =>
    obtain ⟨one, other⟩ := Bool.or_eq_false_iff.1 untouched
    rcases List.mem_append.1 found with found | found
    · exact firstHypothesis one found
    · exact secondHypothesis other found
  | greedy accepts =>
    obtain ⟨_, _, -, -, rfl⟩ := mem_greedyOutcomes.1 found
    rfl
  | sparing accepts =>
    obtain ⟨_, _, -, -, rfl⟩ := mem_greedyOutcomes.1 (mem_sparingOutcomes.1 found)
    rfl
  | many body bodyHypothesis =>
    refine @manyOutcomes_keep _ (fun cursor => cursor.captures part = before.captures part) ?_ _ _ _
      found rfl
    intro middle next once same
    rw [bodyHypothesis untouched once, same]
  | capture other body bodyHypothesis =>
    obtain ⟨different, inner⟩ := Bool.or_eq_false_iff.1 untouched
    obtain ⟨middle, isMiddle, rfl⟩ := List.mem_map.1 found
    have unset : part ≠ other := fun same => of_decide_eq_false different same.symm
    rw [Cursor.capture, ← bodyHypothesis inner isMiddle]
    exact if_neg unset

/-- The outcomes of a pattern that captures nothing are told by what it consumes. -/
theorem mem_outcomes_of_isSilent {pattern : Pattern} (silent : pattern.IsSilent) {after : Cursor}
    (found : after ∈ pattern.outcomes ⟨offset, text, captures⟩) :
    ∃ taken rest, text = taken ++ rest ∧ pattern.Spells offset taken rest ∧
      after = ⟨offset + taken.length, rest, captures⟩ := by
  obtain ⟨taken, spelled⟩ := spelled_of_mem_outcomes found
  have kept : after.captures = captures :=
    funext fun part => captures_of_mem_outcomes (silent part) found
  obtain ⟨passed, rest, others⟩ := after
  obtain rfl : passed = offset + taken.length := spelled.offset
  exact ⟨taken, rest, spelled.rest, spelled.spells, by rw [← kept]⟩

/-- The pattern consumes only characters of a kind. -/
def ConsumesOnly (kind : Char → Prop) : Pattern → Prop
  | .empty => True
  | .one accepts => ∀ char, accepts char = true → kind char
  | .atStart => True
  | .atEnd => True
  | .seq first second => first.ConsumesOnly kind ∧ second.ConsumesOnly kind
  | .either first second => first.ConsumesOnly kind ∧ second.ConsumesOnly kind
  | .greedy accepts => ∀ char, accepts char = true → kind char
  | .sparing accepts => ∀ char, accepts char = true → kind char
  | .many body => body.ConsumesOnly kind
  | .capture _ body => body.ConsumesOnly kind

@[simp] theorem consumesOnly_all {kind : Char → Prop} {patterns : List Pattern} :
    (all patterns).ConsumesOnly kind ↔ ∀ pattern ∈ patterns, pattern.ConsumesOnly kind := by
  induction patterns with
  | nil => simp [all, ConsumesOnly]
  | cons first others inductionHypothesis =>
    rw [List.forall_mem_cons, ← inductionHypothesis]
    cases others with
    | nil => simp [all, ConsumesOnly]
    | cons second others => rfl

@[simp] theorem consumesOnly_anyOf {kind : Char → Prop} {last : Pattern} {patterns : List Pattern} :
    (anyOf last patterns).ConsumesOnly kind ↔
      (∀ pattern ∈ patterns, pattern.ConsumesOnly kind) ∧ last.ConsumesOnly kind := by
  induction patterns with
  | nil => simp [anyOf]
  | cons first others inductionHypothesis =>
    rw [anyOf, ConsumesOnly, inductionHypothesis, List.forall_mem_cons, and_assoc]

@[simp] theorem consumesOnly_optional {kind : Char → Prop} {body : Pattern} :
    (Pattern.optional body).ConsumesOnly kind ↔ body.ConsumesOnly kind :=
  and_iff_left trivial

@[simp] theorem consumesOnly_char {kind : Char → Prop} {wanted : Char} :
    (char wanted).ConsumesOnly kind ↔ kind wanted := by
  simp [char, ConsumesOnly]

/-- A word consumes no character that is not one of its letters. -/
theorem consumesOnly_word {wanted : String} {avoided : Char}
    (kept : Text.foldCase avoided = avoided) (absent : avoided ∉ wanted.toList) :
    (word wanted).ConsumesOnly (· ≠ avoided) := by
  simp only [word, consumesOnly_all, List.mem_map, forall_exists_index, and_imp]
  rintro _ letter isLetter rfl char folded rfl
  rw [decide_eq_true_eq, kept] at folded
  exact absent (folded ▸ isLetter)

/-- A pattern that consumes only characters of a kind spells texts of such characters. -/
theorem Spells.all {pattern : Pattern} {kind : Char → Prop} {taken rest : List Char}
    (spells : pattern.Spells offset taken rest) (only : pattern.ConsumesOnly kind) :
    ∀ char ∈ taken, kind char := by
  induction spells with
  | empty => simp
  | one accepted => exact List.forall_mem_singleton.2 (only _ accepted)
  | atStart => simp
  | atEnd => simp
  | seq _ _ beforeHypothesis behindHypothesis =>
    exact List.forall_mem_append.2 ⟨beforeHypothesis only.1, behindHypothesis only.2⟩
  | left _ chosenHypothesis => exact chosenHypothesis only.1
  | right _ chosenHypothesis => exact chosenHypothesis only.2
  | greedy accepted => exact fun char isIn => only char (accepted char isIn)
  | sparing accepted => exact fun char isIn => only char (accepted char isIn)
  | stop => simp
  | again _ _ onceHypothesis othersHypothesis =>
    exact List.forall_mem_append.2 ⟨onceHypothesis only, othersHypothesis only⟩
  | capture _ innerHypothesis => exact innerHypothesis only

/-- Wherever the pattern captures a part, it consumes only characters of a kind. -/
def CapturesOnly (part : Part) (kind : Char → Prop) : Pattern → Prop
  | .seq first second => first.CapturesOnly part kind ∧ second.CapturesOnly part kind
  | .either first second => first.CapturesOnly part kind ∧ second.CapturesOnly part kind
  | .many body => body.CapturesOnly part kind
  | .capture other body =>
    (other = part → body.ConsumesOnly kind) ∧ body.CapturesOnly part kind
  | _ => True

@[simp] theorem capturesOnly_all {part : Part} {kind : Char → Prop} {patterns : List Pattern} :
    (all patterns).CapturesOnly part kind ↔ ∀ pattern ∈ patterns, pattern.CapturesOnly part kind := by
  induction patterns with
  | nil => simp [all, CapturesOnly]
  | cons first others inductionHypothesis =>
    rw [List.forall_mem_cons, ← inductionHypothesis]
    cases others with
    | nil => simp [all, CapturesOnly]
    | cons second others => rfl

/-- A pattern that does not capture the part captures no other characters of it. -/
theorem capturesOnly_of_setsPart {part : Part} {kind : Char → Prop} {pattern : Pattern}
    (untouched : pattern.setsPart part = false) : pattern.CapturesOnly part kind := by
  induction pattern with
  | seq first second firstHypothesis secondHypothesis =>
    obtain ⟨one, other⟩ := Bool.or_eq_false_iff.1 untouched
    exact ⟨firstHypothesis one, secondHypothesis other⟩
  | either first second firstHypothesis secondHypothesis =>
    obtain ⟨one, other⟩ := Bool.or_eq_false_iff.1 untouched
    exact ⟨firstHypothesis one, secondHypothesis other⟩
  | many body bodyHypothesis => exact bodyHypothesis untouched
  | capture other body bodyHypothesis =>
    obtain ⟨different, inner⟩ := Bool.or_eq_false_iff.1 untouched
    exact ⟨fun same => absurd same (of_decide_eq_false different), bodyHypothesis inner⟩
  | _ => trivial

/-- A cursor in a text whose capture of a part has only characters of a kind. -/
structure Holds (part : Part) (kind : Char → Prop) (text : List Char) (cursor : Cursor) : Prop where
  within : ∃ front, text = front ++ cursor.rest ∧ front.length = cursor.offset
  captured : ∀ span ∈ cursor.captures part, ∀ char ∈ span.of text, kind char

end Retrace.Pattern

namespace Retrace

theorem Captures.set_self (captures : Captures) (part : Part) (span : Span) :
    captures.set part span part = some span :=
  if_pos rfl

theorem Captures.set_of_ne (captures : Captures) {part other : Part} (span : Span)
    (different : other ≠ part) : captures.set part span other = captures other :=
  if_neg different

/-- The characters of a span that is laid over a piece of a text are the piece. -/
theorem Span.of_eq {text front piece rest : List Char} {span : Span}
    (cut : text = front ++ (piece ++ rest)) (start : span.start = front.length)
    (stop : span.stop = front.length + piece.length) : span.of text = piece := by
  rw [Span.of, start, stop, cut, ← List.append_assoc, ← List.length_append, List.take_left,
    List.drop_left]

/-- The characters of a span stand in the text one behind the other. -/
theorem Span.of_infix (span : Span) (text : List Char) : span.of text <:+: text :=
  (List.drop_suffix _ _).isInfix.trans (List.take_prefix _ _).isInfix

end Retrace

namespace Retrace.Pattern

variable {part : Part} {kind : Char → Prop} {text : List Char}

/-- A pattern that does not capture the part keeps what is captured of it. -/
theorem Holds.keep {pattern : Pattern} {before after : Cursor}
    (holds : Holds part kind text before) (untouched : pattern.setsPart part = false)
    (found : after ∈ pattern.outcomes before) : Holds part kind text after := by
  obtain ⟨front, cut, length⟩ := holds.within
  obtain ⟨taken, spelled⟩ := spelled_of_mem_outcomes found
  constructor
  · refine ⟨front ++ taken, ?_, ?_⟩
    · rw [cut, spelled.rest, List.append_assoc]
    · rw [List.length_append, spelled.offset, length]
  · rw [captures_of_mem_outcomes untouched found]
    exact holds.captured

/-- Capturing a part whose characters are of a kind keeps that all captures of it are. -/
theorem Holds.capture {other : Part} {body : Pattern} {before after : Cursor} {taken : List Char}
    (holds : Holds part kind text before) (inner : Holds part kind text after)
    (spelled : Spelled body before after taken) (only : other = part → body.ConsumesOnly kind) :
    Holds part kind text (after.capture other before.offset) := by
  refine ⟨inner.within, ?_⟩
  intro span isCaptured
  by_cases same : part = other
  · subst same
    obtain rfl := Option.some.inj ((Captures.set_self _ _ _).symm.trans isCaptured)
    obtain ⟨front, cut, length⟩ := holds.within
    rw [spelled.rest] at cut
    have piece : Span.of ⟨before.offset, after.offset⟩ text = taken :=
      Span.of_eq cut length.symm (by rw [spelled.offset, length])
    rw [piece]
    exact spelled.spells.all (only rfl)
  · exact inner.captured span ((Captures.set_of_ne _ _ same).symm.trans isCaptured)

/-- What a pattern captures of a part has only characters of the kind that the pattern allows. -/
theorem holds_of_mem_outcomes {pattern : Pattern} (only : pattern.CapturesOnly part kind)
    {before after : Cursor} (found : after ∈ pattern.outcomes before)
    (holds : Holds part kind text before) : Holds part kind text after := by
  induction pattern generalizing before after with
  | empty => exact holds.keep rfl found
  | one => exact holds.keep rfl found
  | atStart => exact holds.keep rfl found
  | atEnd => exact holds.keep rfl found
  | greedy => exact holds.keep rfl found
  | sparing => exact holds.keep rfl found
  | seq first second firstHypothesis secondHypothesis =>
    obtain ⟨middle, one, other⟩ := List.mem_flatMap.1 found
    exact secondHypothesis only.2 other (firstHypothesis only.1 one holds)
  | either first second firstHypothesis secondHypothesis =>
    rcases List.mem_append.1 found with found | found
    · exact firstHypothesis only.1 found holds
    · exact secondHypothesis only.2 found holds
  | many body bodyHypothesis => exact manyOutcomes_keep (bodyHypothesis only) found holds
  | capture other body bodyHypothesis =>
    obtain ⟨inner, isInner, rfl⟩ := List.mem_map.1 found
    obtain ⟨taken, spelled⟩ := spelled_of_mem_outcomes isInner
    exact holds.capture (bodyHypothesis only.2 isInner holds) spelled only.1

/-- Nothing is captured before a text is read. -/
theorem holds_none {front rest : List Char} (cut : text = front ++ rest) :
    Holds part kind text ⟨front.length, rest, Captures.none⟩ where
  within := ⟨front, cut, rfl⟩
  captured := by rintro _ ⟨⟩

/-- What a match in front of a text captures of a part. -/
theorem captured_of_matchFront? {pattern : Pattern} (only : pattern.CapturesOnly part kind)
    {found : Captures} (matched : pattern.matchFront? text = some found) :
    ∀ span ∈ found part, ∀ char ∈ span.of text, kind char := by
  rw [matchFront?_eq_head?] at matched
  obtain ⟨after, isFirst, rfl⟩ := Option.map_eq_some_iff.1 matched
  have start : Holds part kind text (Cursor.front text) := @holds_none part kind text [] text rfl
  exact (holds_of_mem_outcomes only (List.mem_of_head? isFirst) start).captured

/-- A search finds what some match behind a beginning of the text captures. -/
theorem exists_of_searchFrom? {pattern : Pattern} {offset : Nat} {found : Captures}
    (matched : pattern.searchFrom? offset text = some found) :
    ∃ front rest after, text = front ++ rest ∧
      after ∈ pattern.outcomes ⟨offset + front.length, rest, Captures.none⟩ ∧
      found = after.captures := by
  induction text generalizing offset with
  | nil =>
    rw [searchFrom?] at matched
    split at matched
    next captures here =>
      rw [run_eq_findSome?] at here
      obtain ⟨after, isAfter, gives⟩ := List.exists_of_findSome?_eq_some here
      exact ⟨[], [], after, rfl, isAfter, by simp_all⟩
    next => cases matched
  | cons char text inductionHypothesis =>
    rw [searchFrom?] at matched
    split at matched
    next captures here =>
      rw [run_eq_findSome?] at here
      obtain ⟨after, isAfter, gives⟩ := List.exists_of_findSome?_eq_some here
      exact ⟨[], char :: text, after, rfl, isAfter, by simp_all⟩
    next =>
      obtain ⟨front, rest, after, rfl, isAfter, rfl⟩ := inductionHypothesis matched
      have passed : offset + (char :: front).length = offset + 1 + front.length := by
        rw [List.length_cons]
        omega
      exact ⟨char :: front, rest, after, rfl, by rwa [passed], rfl⟩

/-- What the first match anywhere in a text captures of a part. -/
theorem captured_of_search? {pattern : Pattern} (only : pattern.CapturesOnly part kind)
    {found : Captures} (matched : pattern.search? text = some found) :
    ∀ span ∈ found part, ∀ char ∈ span.of text, kind char := by
  obtain ⟨front, rest, after, cut, isAfter, rfl⟩ := exists_of_searchFrom? matched
  rw [Nat.zero_add] at isAfter
  exact (holds_of_mem_outcomes only isAfter (holds_none cut)).captured

end Retrace.Pattern
