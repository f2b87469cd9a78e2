import Mathlib.Data.List.TakeWhile
import Retrace.Proofs.Pattern.Trailing

/-!
# Blanks in front of a text

A pattern that does not ask for the front of the text does not know how much of it is already
passed: at another offset it has the same outcomes, with all captures moved along. A pattern that
first skips blanks therefore captures the same behind an indent, if what follows the blanks would
rather have them skipped.
-/

namespace Retrace

/-- The span with another text in front of everything. -/
def Span.shift (distance : Nat) (span : Span) : Span :=
  ⟨distance + span.start, distance + span.stop⟩

/-- The captures with another text in front of everything. -/
def Captures.shift (distance : Nat) (captures : Captures) : Captures :=
  fun part => (captures part).map (Span.shift distance)

/-- The cursor with another text in front of everything. -/
def Cursor.shift (distance : Nat) (cursor : Cursor) : Cursor :=
  ⟨distance + cursor.offset, cursor.rest, cursor.captures.shift distance⟩

theorem Cursor.shift_capture (distance start : Nat) (cursor : Cursor) (part : Part) :
    (cursor.capture part start).shift distance =
      (cursor.shift distance).capture part (distance + start) := by
  have moved : (cursor.captures.set part ⟨start, cursor.offset⟩).shift distance =
      (cursor.captures.shift distance).set part ⟨distance + start, distance + cursor.offset⟩ := by
    funext other
    by_cases same : other = part
    · subst same
      simp [Captures.shift, Captures.set, Span.shift]
    · simp [Captures.shift, Captures.set, same]
  rw [Cursor.capture, Cursor.shift, moved]
  rfl

/-- The characters of a span are the same with another text in front. -/
theorem Span.of_shift (indent text : List Char) (span : Span) :
    (span.shift indent.length).of (indent ++ text) = span.of text := by
  rw [Span.of, Span.shift, List.take_length_add_append, List.drop_length_add_append, Span.of]

/-- The captured texts are the same with another text in front. -/
theorem Captures.text?_shift (indent text : List Char) (captures : Captures) (part : Part) :
    (captures.shift indent.length).text? part (indent ++ text) = captures.text? part text := by
  rw [Captures.text?, Captures.text?, Captures.shift, Option.map_map]
  exact congrArg (Option.map · (captures part)) (funext fun span => span.of_shift indent text)

namespace Pattern

variable {pattern body : Pattern} {captures : Captures} {offset : Nat} {text : List Char}

/-- The pattern does not ask for the front of the text. -/
def Unanchored : Pattern → Bool
  | .atStart => false
  | .seq first second | .either first second => first.Unanchored && second.Unanchored
  | .many body | .capture _ body => body.Unanchored
  | _ => true

theorem greedyOutcomes_shift (accepts : Char → Bool) (distance : Nat) :
    greedyOutcomes accepts (captures.shift distance) (distance + offset) text =
      (greedyOutcomes accepts captures offset text).map (Cursor.shift distance) := by
  induction text generalizing offset with
  | nil => rfl
  | cons char text inductionHypothesis =>
    rw [greedyOutcomes, greedyOutcomes, Nat.add_assoc, inductionHypothesis]
    split
    · rw [List.map_append]
      rfl
    · rfl

theorem sparingOutcomes_shift (accepts : Char → Bool) (distance : Nat) :
    sparingOutcomes accepts (captures.shift distance) (distance + offset) text =
      (sparingOutcomes accepts captures offset text).map (Cursor.shift distance) := by
  induction text generalizing offset with
  | nil => rfl
  | cons char text inductionHypothesis =>
    rw [sparingOutcomes, sparingOutcomes, Nat.add_assoc, inductionHypothesis]
    split <;> rfl

theorem manyOutcomes_shift {step : Cursor → List Cursor} {distance : Nat}
    (moves : ∀ cursor : Cursor, step (cursor.shift distance) =
      (step cursor).map (Cursor.shift distance)) (count : Nat) (cursor : Cursor) :
    manyOutcomes step count (cursor.shift distance) =
      (manyOutcomes step count cursor).map (Cursor.shift distance) := by
  induction count generalizing cursor with
  | zero => rfl
  | succ count inductionHypothesis =>
    rw [manyOutcomes, manyOutcomes, moves, List.flatMap_map, List.map_append, List.map_flatMap]
    simp only [inductionHypothesis, List.map_singleton]

/-- With another text in front, an unanchored pattern has the same outcomes behind it. -/
theorem outcomes_shift (free : pattern.Unanchored = true) (distance : Nat) (cursor : Cursor) :
    pattern.outcomes (cursor.shift distance) =
      (pattern.outcomes cursor).map (Cursor.shift distance) := by
  induction pattern generalizing cursor with
  | empty => rfl
  | one accepts =>
    obtain ⟨offset, text, captures⟩ := cursor
    cases text with
    | nil => rfl
    | cons char text =>
      simp only [outcomes, Cursor.shift]
      split <;> rfl
  | atStart => cases free
  | atEnd =>
    rw [outcomes, outcomes, apply_ite (List.map (Cursor.shift distance))]
    rfl
  | seq first second firstHypothesis secondHypothesis =>
    obtain ⟨isFirst, isSecond⟩ := (Bool.and_eq_true _ _).mp free
    rw [outcomes, outcomes, firstHypothesis isFirst, List.flatMap_map, List.map_flatMap]
    simp only [secondHypothesis isSecond]
  | either first second firstHypothesis secondHypothesis =>
    obtain ⟨isFirst, isSecond⟩ := (Bool.and_eq_true _ _).mp free
    rw [outcomes, outcomes, firstHypothesis isFirst, secondHypothesis isSecond, List.map_append]
  | greedy accepts => exact greedyOutcomes_shift accepts distance
  | sparing accepts => exact sparingOutcomes_shift accepts distance
  | many body bodyHypothesis => exact manyOutcomes_shift (bodyHypothesis free) _ cursor
  | capture part body bodyHypothesis =>
    rw [outcomes, outcomes, bodyHypothesis free, List.map_map, List.map_map]
    exact List.map_congr_left fun after _ => (after.shift_capture distance cursor.offset part).symm

/-- With another text in front, an unanchored pattern captures the same behind it. -/
theorem run_shift (free : pattern.Unanchored = true) (distance : Nat) (cursor : Cursor) :
    pattern.run (cursor.shift distance) (fun after => some after.captures) =
      (pattern.run cursor fun after => some after.captures).map (Captures.shift distance) := by
  rw [run_eq_findSome?, run_eq_findSome?, outcomes_shift free, List.findSome?_map,
    List.map_findSome?]
  rfl

/-- The pattern spells some part of the text from its front on. -/
def Begins (pattern : Pattern) (offset : Nat) (text : List Char) : Prop :=
  ∃ taken rest, text = taken ++ rest ∧ pattern.Spells offset taken rest

/-- There is a match exactly if some part of the text is spelled. -/
theorem run_eq_none_iff :
    (pattern.run ⟨offset, text, captures⟩ fun after => some after.captures) = none ↔
      ¬ pattern.Begins offset text := by
  constructor
  · rintro nothing ⟨taken, rest, rfl, spells⟩
    exact run_ne_none (fun _ => Option.some_ne_none _) spells nothing
  · exact fun nowhere => run_eq_none fun taken rest cut spells => nowhere ⟨taken, rest, cut, spells⟩

/-- A match spells some part of the text. -/
theorem begins_of_run {α : Type} {next : Continuation α} {result : α} {cursor : Cursor}
    (matched : pattern.run cursor next = some result) :
    pattern.Begins cursor.offset cursor.rest := by
  obtain ⟨after, isAfter, -⟩ := exists_of_run matched
  obtain ⟨taken, spelled⟩ := spelled_of_mem_outcomes isAfter
  exact ⟨taken, after.rest, spelled.rest, spelled.spells⟩

/-- How much of the text is already passed does not matter to an unanchored pattern. -/
theorem begins_shift (free : pattern.Unanchored = true) (distance : Nat) :
    pattern.Begins (distance + offset) text ↔ pattern.Begins offset text := by
  rw [← not_iff_not, ← run_eq_none_iff, ← run_eq_none_iff]
  have shifted := run_shift free distance ⟨offset, text, Captures.none⟩
  rw [Cursor.shift] at shifted
  rw [shifted, Option.map_eq_none_iff]

/-- Patterns that match alike begin alike. -/
theorem begins_congr {other : Pattern} (same : ∀ captures : Captures,
    (pattern.run ⟨offset, text, captures⟩ fun after => some after.captures) =
      other.run ⟨offset, text, captures⟩ fun after => some after.captures) :
    pattern.Begins offset text ↔ other.Begins offset text := by
  rw [← not_iff_not, ← run_eq_none_iff, ← run_eq_none_iff, same Captures.none]

/-- With another text in front, a search for an unanchored pattern finds the same behind it. -/
theorem searchFrom?_shift (free : pattern.Unanchored = true) (distance : Nat) :
    pattern.searchFrom? (distance + offset) text =
      (pattern.searchFrom? offset text).map (Captures.shift distance) := by
  have shifted (offset : Nat) (text : List Char) :
      (pattern.run ⟨distance + offset, text, Captures.none⟩ fun after => some after.captures) =
        (pattern.run ⟨offset, text, Captures.none⟩ fun after => some after.captures).map
          (Captures.shift distance) :=
    run_shift free distance ⟨offset, text, Captures.none⟩
  induction text generalizing offset with
  | nil =>
    rw [searchFrom?, searchFrom?, shifted]
    cases pattern.run ⟨offset, [], Captures.none⟩ fun after => some after.captures <;> rfl
  | cons char text inductionHypothesis =>
    rw [searchFrom?, searchFrom?, shifted]
    cases pattern.run ⟨offset, char :: text, Captures.none⟩ fun after => some after.captures with
    | some captures => rfl
    | none => exact @inductionHypothesis (offset + 1)

section Blanks

variable {first second third : Pattern} {accepts : Char → Bool}

theorem begins_seq : (seq first second).Begins offset text ↔
    ∃ front behind, text = front ++ behind ∧ first.Spells offset front behind ∧
      second.Begins (offset + front.length) behind := by
  constructor
  · rintro ⟨_, rest, rfl, spells⟩
    obtain ⟨front, back, rfl, one, other⟩ := spells_seq.1 spells
    exact ⟨front, back ++ rest, List.append_assoc _ _ _, one, back, rest, rfl, other⟩
  · rintro ⟨front, _, rfl, one, back, rest, rfl, other⟩
    exact ⟨front ++ back, rest, (List.append_assoc _ _ _).symm, .seq one other⟩

/-- The pattern matches nothing in front of a blank. -/
def AvoidsBlanks (pattern : Pattern) : Prop :=
  ∀ offset char text, Text.isBlank char = true → ¬ pattern.Begins offset (char :: text)

/-- Where the pattern matches in front of a blank, it matches behind it as well. -/
def SkipsBlanks (pattern : Pattern) : Prop :=
  ∀ offset char text, Text.isBlank char = true → pattern.Begins offset (char :: text) →
    pattern.Begins (offset + 1) text

/-- Where the pattern matches in front of blanks, it matches behind all of them as well. -/
theorem SkipsBlanks.behind (skips : pattern.SkipsBlanks) {blanks : List Char}
    (blank : ∀ char ∈ blanks, Text.isBlank char = true)
    (begins : pattern.Begins offset (blanks ++ text)) :
    pattern.Begins (offset + blanks.length) text := by
  induction blanks generalizing offset with
  | nil => exact begins
  | cons char blanks inductionHypothesis =>
    obtain ⟨isBlank, others⟩ := List.forall_mem_cons.1 blank
    have later := inductionHypothesis others (skips offset char _ isBlank begins)
    rwa [Nat.add_right_comm, Nat.add_assoc] at later

theorem begins_assoc : (seq (seq first second) third).Begins offset text ↔
    (seq first (seq second third)).Begins offset text :=
  begins_congr fun _ => rfl

theorem begins_either : (either first second).Begins offset text ↔
    first.Begins offset text ∨ second.Begins offset text := by
  constructor
  · rintro ⟨taken, rest, rfl, spells⟩
    exact (spells_either.1 spells).imp (fun one => ⟨taken, rest, rfl, one⟩)
      fun other => ⟨taken, rest, rfl, other⟩
  · rintro (⟨taken, rest, rfl, spells⟩ | ⟨taken, rest, rfl, spells⟩)
    · exact ⟨taken, rest, rfl, .left spells⟩
    · exact ⟨taken, rest, rfl, .right spells⟩

theorem SkipsBlanks.assoc (skips : (seq first (seq second third)).SkipsBlanks) :
    (seq (seq first second) third).SkipsBlanks :=
  fun offset char text blank begins =>
    begins_assoc.2 (skips offset char text blank (begins_assoc.1 begins))

theorem AvoidsBlanks.skipsBlanks (avoids : pattern.AvoidsBlanks) : pattern.SkipsBlanks :=
  fun offset char text blank begins => absurd begins (avoids offset char text blank)

theorem AvoidsBlanks.capture {part : Part} (avoids : (seq first second).AvoidsBlanks) :
    (seq (capture part first) second).AvoidsBlanks := by
  intro offset char text blank begins
  obtain ⟨front, behind, cut, spells, follows⟩ := begins_seq.1 begins
  exact avoids offset char text blank
    (begins_seq.2 ⟨front, behind, cut, spells_capture.1 spells, follows⟩)

theorem AvoidsBlanks.assoc (avoids : (seq first (seq second third)).AvoidsBlanks) :
    (seq (seq first second) third).AvoidsBlanks :=
  fun offset char text blank begins => avoids offset char text blank (begins_assoc.1 begins)

theorem avoidsBlanks_one (refuses : RefusesBlanks accepts) :
    (seq (one accepts) second).AvoidsBlanks := by
  intro offset char text blank begins
  obtain ⟨_, behind, cut, spells, -⟩ := begins_seq.1 begins
  obtain ⟨other, rfl, accepted⟩ := spells_one.1 spells
  obtain ⟨rfl, -⟩ := List.cons_eq_cons.1 cut
  rw [refuses char blank] at accepted
  cases accepted

theorem avoidsBlanks_char {wanted : Char} (noBlank : Text.isBlank wanted = false) :
    (seq (char wanted) second).AvoidsBlanks := by
  refine avoidsBlanks_one fun char blank => decide_eq_false ?_
  rintro rfl
  rw [noBlank] at blank
  cases blank

theorem avoidsBlanks_word {wanted : String} {letter : Char} {letters : List Char}
    (isWord : wanted.toList = letter :: letters) (noBlank : Text.isBlank letter = false) :
    (seq (word wanted) second).AvoidsBlanks := by
  intro offset char text blank begins
  obtain ⟨_, behind, cut, spells, -⟩ := begins_seq.1 begins
  obtain ⟨other, others, rfl, rfl, -⟩ :=
    List.map_eq_cons_iff.1 ((spells_word.1 spells).trans isWord)
  obtain ⟨rfl, -⟩ := List.cons_eq_cons.1 cut
  rw [Text.foldCase_of_isBlank blank, blank] at noBlank
  cases noBlank

/-- What can do with one blank less may lose it to what comes before. -/
theorem skipsBlanks_seq
    (drops : ∀ {offset char taken rest}, Text.isBlank char = true →
      first.Spells offset (char :: taken) rest → first.Spells (offset + 1) taken rest)
    (empty : ∀ {offset char rest}, first.Spells offset [] (char :: rest) →
      first.Spells (offset + 1) [] rest ∧ second.SkipsBlanks) : (seq first second).SkipsBlanks := by
  intro offset char text blank begins
  obtain ⟨front, behind, cut, spells, follows⟩ := begins_seq.1 begins
  cases front with
  | nil =>
    rw [List.nil_append] at cut
    subst cut
    obtain ⟨moved, skips⟩ := empty spells
    exact begins_seq.2 ⟨[], text, rfl, moved, skips offset char text blank follows⟩
  | cons other front =>
    obtain ⟨rfl, rfl⟩ := List.cons_eq_cons.1 cut
    rw [List.length_cons, Nat.add_comm front.length, ← Nat.add_assoc] at follows
    exact begins_seq.2 ⟨front, behind, rfl, drops blank spells, follows⟩

theorem skipsBlanks_optional (one : (seq first second).SkipsBlanks) (other : second.SkipsBlanks) :
    (seq (optional first) second).SkipsBlanks := by
  have begins_optional {offset : Nat} {text : List Char} :
      (seq (optional first) second).Begins offset text ↔
        (seq first second).Begins offset text ∨ second.Begins offset text := by
    rw [← begins_either]
    exact begins_congr fun _ => rfl
  intro offset char text blank begins
  exact begins_optional.2 ((begins_optional.1 begins).imp (one offset char text blank)
    (other offset char text blank))

end Blanks

/-- A pattern that skips blanks is tried behind all of them only. -/
theorem runGreedy_blanks (skips : body.SkipsBlanks) {blanks core : List Char}
    (blank : ∀ char ∈ blanks, Text.isBlank char = true)
    (stops : ∀ char ∈ core.head?, Text.isBlank char = false) :
    runGreedy Text.isBlank captures (body.run · fun after => some after.captures) offset
        (blanks ++ core) =
      body.run ⟨offset + blanks.length, core, captures⟩ fun after => some after.captures := by
  induction blanks generalizing offset with
  | nil => exact runGreedy_of_stop stops
  | cons char blanks inductionHypothesis =>
    obtain ⟨isBlank, others⟩ := List.forall_mem_cons.1 blank
    have passed : offset + 1 + blanks.length = offset + (char :: blanks).length := by
      rw [List.length_cons]
      omega
    rw [List.cons_append, runGreedy, if_pos isBlank, inductionHypothesis others, passed]
    cases here : body.run ⟨offset + (char :: blanks).length, core, captures⟩
        fun after => some after.captures with
    | some result => rfl
    | none =>
      exact run_eq_none_iff.2 fun begins => run_eq_none_iff.1 here (skips.behind blank begins)

/-- Skips blanks at the front of the text, and then goes on. -/
def indented (body : Pattern) : Pattern :=
  seq atStart (seq blanks body)

/-- Behind an indent the same is captured. -/
theorem matchFront?_indented (free : body.Unanchored = true) (skips : body.SkipsBlanks)
    {indent : List Char} (blank : ∀ char ∈ indent, Text.isBlank char = true) (text : List Char) :
    (indented body).matchFront? (indent ++ text) =
      ((indented body).matchFront? text).map (Captures.shift indent.length) := by
  have split : text = text.takeWhile Text.isBlank ++ text.dropWhile Text.isBlank :=
    List.takeWhile_append_dropWhile.symm
  generalize frontIs : text.takeWhile Text.isBlank = front at split
  generalize coreIs : text.dropWhile Text.isBlank = core at split
  have frontBlank : ∀ char ∈ front, Text.isBlank char = true := by
    rw [← frontIs]
    exact fun char isIn => List.mem_takeWhile_imp isIn
  have stops : ∀ char ∈ core.head?, Text.isBlank char = false := by
    intro char isHead
    have noBlank := List.head?_dropWhile_not Text.isBlank text
    rw [coreIs, isHead] at noBlank
    simpa using noBlank
  have whole {blanks : List Char} (blank : ∀ char ∈ blanks, Text.isBlank char = true) :
      (indented body).matchFront? (blanks ++ core) =
        body.run ⟨0 + blanks.length, core, Captures.none⟩ fun after => some after.captures :=
    runGreedy_blanks skips blank stops
  rw [split, ← List.append_assoc, whole (List.forall_mem_append.2 ⟨blank, frontBlank⟩),
    whole frontBlank, ← run_shift free]
  rw [Nat.zero_add, Nat.zero_add, List.length_append]
  rfl

end Pattern

end Retrace
