import Retrace.Proofs.Pattern.Captured

/-!
# Which match is preferred

A pattern that can match in several ways takes the most preferred one that what follows accepts.
The lemmas here decide which one that is: a greedy repetition stops where everything longer is
refused, a lazy one where everything shorter is refused, and where all accepted ways lead to the
same result, preference does not matter.
-/

namespace Retrace.Pattern

variable {α : Type} {accepts : Char → Bool} {captures : Captures} {next : Continuation α}
  {offset : Nat} {taken rest text : List Char} {result : α}

/-- The continuation refuses the text or gives one certain result on it. -/
def AtMost (next : Continuation α) (result : α) (cursor : Cursor) : Prop :=
  next cursor = none ∨ next cursor = some result

/-- A sequence continues behind its first part with its second part. -/
theorem run_seq {first second : Pattern} {cursor : Cursor} :
    (seq first second).run cursor next = first.run cursor fun middle => second.run middle next := rfl

/-- Patterns in turn continue behind the first one with the others. -/
theorem run_all_cons {first : Pattern} {others : List Pattern} {cursor : Cursor} :
    (all (first :: others)).run cursor next =
      first.run cursor fun middle => (all others).run middle next := by
  cases others with
  | nil => rfl
  | cons second others => rfl

/-- A pattern does not match if the continuation refuses all its outcomes. -/
theorem run_eq_none_of_refused {pattern : Pattern} {cursor : Cursor}
    (refused : ∀ after ∈ pattern.outcomes cursor, next after = none) :
    pattern.run cursor next = none := by
  rw [run_eq_findSome?, List.findSome?_eq_none_iff]
  exact refused

/-- A pattern does not match in front of a text of which it spells no part. -/
theorem run_eq_none {pattern : Pattern}
    (spellsNone : ∀ taken rest, text = taken ++ rest → ¬ pattern.Spells offset taken rest) :
    pattern.run ⟨offset, text, captures⟩ next = none := by
  apply run_eq_none_of_refused
  intro after found
  obtain ⟨taken, spelled⟩ := spelled_of_mem_outcomes found
  exact absurd spelled.spells (spellsNone taken after.rest spelled.rest)

/-- A pattern matches in front of a text of which it spells a part, if what follows refuses nothing. -/
theorem run_ne_none {pattern : Pattern} (accepted : ∀ cursor, next cursor ≠ none)
    (spells : pattern.Spells offset taken rest) :
    pattern.run ⟨offset, taken ++ rest, captures⟩ next ≠ none := by
  obtain ⟨after, isAfter, -⟩ := exists_mem_outcomes spells captures
  rw [run_eq_findSome?]
  exact fun nothing => accepted after (List.findSome?_eq_none_iff.1 nothing after isAfter)

/-- A pattern does not contradict a result that no outcome contradicts. -/
theorem run_atMost {pattern : Pattern} {cursor : Cursor}
    (agree : ∀ after ∈ pattern.outcomes cursor, AtMost next result after) :
    AtMost (pattern.run · next) result cursor := by
  unfold AtMost
  dsimp only
  rw [run_eq_findSome?]
  cases first : (pattern.outcomes cursor).findSome? next with
  | none => exact .inl rfl
  | some other =>
    obtain ⟨chosen, isChosen, gives⟩ := List.exists_of_findSome?_eq_some first
    rcases agree chosen isChosen with refused | same
    · rw [refused] at gives
      cases gives
    · exact .inr (by rw [← gives, same])

/-- A pattern matches with a result that some outcome gives and no outcome contradicts. -/
theorem run_eq_some_of_atMost {pattern : Pattern} {cursor : Cursor}
    (agree : ∀ after ∈ pattern.outcomes cursor, AtMost next result after)
    (found : ∃ after ∈ pattern.outcomes cursor, next after = some result) :
    pattern.run cursor next = some result := by
  rcases run_atMost agree with refused | same
  · obtain ⟨after, isAfter, accepted⟩ := found
    have nothing : (pattern.outcomes cursor).findSome? next = none := by
      rw [← run_eq_findSome?]
      exact refused
    rw [List.findSome?_eq_none_iff.1 nothing after isAfter] at accepted
    cases accepted
  · exact same

/-- A choice takes its first side if that leads to a result. -/
theorem run_either_of_some {first second : Pattern} {cursor : Cursor}
    (here : first.run cursor next = some result) :
    (either first second).run cursor next = some result := by
  simp only [run, here]

/-- A choice takes its second side if the first one leads to nothing. -/
theorem run_either_of_none {first second : Pattern} {cursor : Cursor}
    (nothing : first.run cursor next = none) :
    (either first second).run cursor next = second.run cursor next := by
  simp only [run, nothing]

/-- A choice does not contradict a result that neither of its sides contradicts. -/
theorem run_either_atMost {first second : Pattern} {cursor : Cursor}
    (one : AtMost (first.run · next) result cursor)
    (other : AtMost (second.run · next) result cursor) :
    AtMost ((either first second).run · next) result cursor := by
  rcases one with nothing | here
  · rcases other with neither | here
    · exact .inl ((run_either_of_none nothing).trans neither)
    · exact .inr ((run_either_of_none nothing).trans here)
  · exact .inr (run_either_of_some here)

/-- What can be left out is not left out if it leads to a result. -/
theorem run_optional_of_some {body : Pattern} {cursor : Cursor}
    (here : body.run cursor next = some result) : (optional body).run cursor next = some result :=
  run_either_of_some here

/-- What can be left out is left out if it leads to nothing. -/
theorem run_optional_of_none {body : Pattern} {cursor : Cursor}
    (nothing : body.run cursor next = none) : (optional body).run cursor next = next cursor :=
  run_either_of_none nothing

/-- A character that stands in front is consumed. -/
theorem run_char {wanted : Char} :
    (char wanted).run ⟨offset, wanted :: rest, captures⟩ next = next ⟨offset + 1, rest, captures⟩ := by
  simp [char, run, Cursor.step]

/-- A character is not consumed where another one stands in front. -/
theorem run_char_of_head {wanted : Char} (other : text.head? ≠ some wanted) :
    (char wanted).run ⟨offset, text, captures⟩ next = none := by
  apply run_eq_none
  rintro taken rest rfl spells
  obtain rfl := spells_char.1 spells
  exact other rfl

/-- A character is not found in a text that does not have it. -/
theorem run_char_of_not_mem {wanted : Char} (absent : wanted ∉ text) :
    (char wanted).run ⟨offset, text, captures⟩ next = none :=
  run_char_of_head fun isHead => absent (List.mem_of_head? isHead)

/-- A word that stands in front is consumed. -/
theorem run_word {wanted : String} (written : taken.map Text.foldCase = wanted.toList) :
    (word wanted).run ⟨offset, taken ++ rest, captures⟩ next =
      next ⟨offset + taken.length, rest, captures⟩ := by
  unfold word
  rw [← written]
  clear written
  induction taken generalizing offset with
  | nil => rfl
  | cons char others inductionHypothesis =>
    have one {after : Continuation α} : (Pattern.one fun other =>
        Text.foldCase other = Text.foldCase char).run
          ⟨offset, char :: (others ++ rest), captures⟩ after =
        after ⟨offset + 1, others ++ rest, captures⟩ := by
      simp [run, Cursor.step]
    rw [List.map_cons, List.map_cons, run_all_cons, List.cons_append, one, inductionHypothesis,
      List.length_cons, Nat.add_assoc, Nat.add_comm 1]

/-- The front of the text is at its front. -/
theorem run_atStart : atStart.run ⟨0, text, captures⟩ next = next ⟨0, text, captures⟩ := rfl

/-- No other place is at the front of the text. -/
theorem run_atStart_of_ne (passed : offset ≠ 0) :
    atStart.run ⟨offset, text, captures⟩ next = none :=
  if_neg passed

section Greedy

/-- A greedy repetition that goes on to where everything longer is refused. -/
theorem runGreedy_eq_some (accepted : ∀ char ∈ taken, accepts char = true)
    (longer : ∀ more behind, rest = more ++ behind → more ≠ [] →
      (∀ char ∈ more, accepts char = true) →
      next ⟨offset + taken.length + more.length, behind, captures⟩ = none)
    (here : next ⟨offset + taken.length, rest, captures⟩ = some result) :
    runGreedy accepts captures next offset (taken ++ rest) = some result := by
  induction taken generalizing offset with
  | nil =>
    rw [runGreedy_eq_findSome?]
    cases rest with
    | nil => simpa [greedyOutcomes] using here
    | cons char rest =>
      rw [List.nil_append, greedyOutcomes]
      split
      next accepted =>
        -- Whatever goes on behind the first character is longer than it should be.
        have further : (greedyOutcomes accepts captures (offset + 1) rest).findSome? next = none := by
          rw [List.findSome?_eq_none_iff]
          intro after found
          obtain ⟨more, behind, rfl, kept, rfl⟩ := mem_greedyOutcomes.1 found
          have refused := longer (char :: more) behind rfl (List.cons_ne_nil _ _)
            (List.forall_mem_cons.2 ⟨accepted, kept⟩)
          rw [List.length_nil, List.length_cons, Nat.add_zero, Nat.add_comm more.length,
            ← Nat.add_assoc] at refused
          exact refused
        rw [List.findSome?_append, further]
        simpa using here
      next => simpa using here
  | cons char taken inductionHypothesis =>
    obtain ⟨isAccepted, others⟩ := List.forall_mem_cons.1 accepted
    have passed : offset + (char :: taken).length = offset + 1 + taken.length := by
      rw [List.length_cons]
      omega
    rw [passed] at here longer
    rw [List.cons_append, runGreedy, if_pos isAccepted, inductionHypothesis others longer here]

/-- A greedy repetition behind which everything is refused takes nothing. -/
theorem runGreedy_eq_of_refused
    (longer : ∀ more behind, text = more ++ behind → more ≠ [] →
      (∀ char ∈ more, accepts char = true) →
      next ⟨offset + more.length, behind, captures⟩ = none) :
    runGreedy accepts captures next offset text = next ⟨offset, text, captures⟩ := by
  cases here : next ⟨offset, text, captures⟩ with
  | some result =>
    have unchanged : runGreedy accepts captures next offset ([] ++ text) = some result :=
      runGreedy_eq_some (by simp) longer here
    exact unchanged
  | none =>
    rw [runGreedy_eq_findSome?, List.findSome?_eq_none_iff]
    intro after found
    obtain ⟨more, behind, cut, kept, rfl⟩ := mem_greedyOutcomes.1 found
    by_cases none : more = []
    · subst none
      obtain rfl : text = behind := cut
      exact here
    · exact longer more behind cut none kept

/-- Where what follows refuses the characters of a kind, a repetition of that kind leaves none. -/
theorem runGreedy_of_refused (accepted : ∀ char ∈ taken, accepts char = true)
    (stops : ∀ char ∈ rest.head?, accepts char = false)
    (refused : ∀ offset char text, accepts char = true →
      next ⟨offset, char :: text, captures⟩ = none) :
    runGreedy accepts captures next offset (taken ++ rest) =
      next ⟨offset + taken.length, rest, captures⟩ := by
  induction taken generalizing offset with
  | nil =>
    cases rest with
    | nil => rfl
    | cons char rest => simp [runGreedy, stops char rfl]
  | cons char taken inductionHypothesis =>
    obtain ⟨isAccepted, others⟩ := List.forall_mem_cons.1 accepted
    have passed : offset + (char :: taken).length = offset + 1 + taken.length := by
      rw [List.length_cons]
      omega
    rw [List.cons_append, runGreedy, if_pos isAccepted, inductionHypothesis others, passed]
    cases next ⟨offset + 1 + taken.length, rest, captures⟩ with
    | some result => rfl
    | none => exact refused offset char (taken ++ rest) isAccepted

/-- A repetition of a kind takes nothing in front of a character of another kind. -/
theorem runGreedy_of_stop (stops : ∀ char ∈ text.head?, accepts char = false) :
    runGreedy accepts captures next offset text = next ⟨offset, text, captures⟩ := by
  cases text with
  | nil => rfl
  | cons char text =>
    have refused : ¬ accepts char = true := by simp [stops char rfl]
    rw [runGreedy, if_neg refused]

/-- At least one character of a kind, up to where everything longer is refused. -/
theorem run_greedyOne_eq_some (nonempty : taken ≠ [])
    (accepted : ∀ char ∈ taken, accepts char = true)
    (longer : ∀ more behind, rest = more ++ behind → more ≠ [] →
      (∀ char ∈ more, accepts char = true) →
      next ⟨offset + taken.length + more.length, behind, captures⟩ = none)
    (here : next ⟨offset + taken.length, rest, captures⟩ = some result) :
    (greedyOne accepts).run ⟨offset, taken ++ rest, captures⟩ next = some result := by
  obtain ⟨first, others, rfl⟩ := List.exists_cons_of_ne_nil nonempty
  obtain ⟨isAccepted, kept⟩ := List.forall_mem_cons.1 accepted
  have passed : offset + (first :: others).length = offset + 1 + others.length := by
    rw [List.length_cons]
    omega
  rw [passed] at here longer
  simp only [greedyOne, run, List.cons_append, isAccepted, if_true, Cursor.step]
  exact runGreedy_eq_some kept longer here

/-- At least one character of a kind, up to the first character of another kind. -/
theorem run_greedyOne_of_stop (nonempty : taken ≠ [])
    (accepted : ∀ char ∈ taken, accepts char = true)
    (stops : ∀ char ∈ rest.head?, accepts char = false)
    (here : next ⟨offset + taken.length, rest, captures⟩ = some result) :
    (greedyOne accepts).run ⟨offset, taken ++ rest, captures⟩ next = some result := by
  apply run_greedyOne_eq_some nonempty accepted _ here
  rintro (_ | ⟨char, more⟩) behind rfl some kept
  · exact absurd rfl some
  · have isAccepted := kept char List.mem_cons_self
    rw [stops char (by simp)] at isAccepted
    cases isAccepted

end Greedy

/-- A lazy repetition takes nothing where what follows leads to a result. -/
theorem runSparing_of_some (here : next ⟨offset, text, captures⟩ = some result) :
    runSparing accepts captures next offset text = some result := by
  cases text with
  | nil => exact here
  | cons char text => rw [runSparing, here]

/-- A lazy repetition ends where everything shorter is refused. -/
theorem exists_of_runSparing
    (matched : runSparing accepts captures next offset text = some result) :
    ∃ taken rest, text = taken ++ rest ∧
      next ⟨offset + taken.length, rest, captures⟩ = some result ∧
      ∀ front late, taken = front ++ late → late ≠ [] →
        next ⟨offset + front.length, late ++ rest, captures⟩ = none := by
  induction text generalizing offset with
  | nil =>
    exact ⟨[], [], rfl, matched, fun _ _ cut nonempty =>
      absurd (List.append_eq_nil_iff.1 cut.symm).2 nonempty⟩
  | cons char text inductionHypothesis =>
    rw [runSparing] at matched
    cases here : next ⟨offset, char :: text, captures⟩ with
    | some other =>
      rw [here] at matched
      exact ⟨[], char :: text, rfl, here.trans matched, fun _ _ cut nonempty =>
        absurd (List.append_eq_nil_iff.1 cut.symm).2 nonempty⟩
    | none =>
      simp only [here] at matched
      split at matched
      next =>
        obtain ⟨taken, rest, rfl, ends, shorter⟩ := inductionHypothesis matched
        have passed (count : Nat) : offset + (count + 1) = offset + 1 + count := by omega
        refine ⟨char :: taken, rest, rfl, by rwa [List.length_cons, passed], ?_⟩
        intro front late cut nonempty
        cases front with
        | nil =>
          obtain rfl : char :: taken = late := cut
          exact here
        | cons first front =>
          rw [List.length_cons, passed]
          exact shorter front late (List.cons_eq_cons.1 cut).2 nonempty
      next => cases matched

/-- A lazy repetition that goes on to where everything shorter is refused. -/
theorem runSparing_eq_some (accepted : ∀ char ∈ taken, accepts char = true)
    (shorter : ∀ front late, taken = front ++ late → late ≠ [] →
      next ⟨offset + front.length, late ++ rest, captures⟩ = none)
    (here : next ⟨offset + taken.length, rest, captures⟩ = some result) :
    runSparing accepts captures next offset (taken ++ rest) = some result := by
  induction taken generalizing offset with
  | nil => exact runSparing_of_some here
  | cons char taken inductionHypothesis =>
    obtain ⟨isAccepted, others⟩ := List.forall_mem_cons.1 accepted
    have tooEarly := shorter [] (char :: taken) rfl (List.cons_ne_nil _ _)
    have passed (count : Nat) : offset + (count + 1) = offset + 1 + count := by omega
    rw [List.cons_append, List.length_nil, Nat.add_zero] at tooEarly
    rw [List.cons_append, runSparing, tooEarly]
    simp only [isAccepted, if_true]
    apply inductionHypothesis others
    · intro front late cut nonempty
      have refused := shorter (char :: front) late (by rw [cut, List.cons_append]) nonempty
      rwa [List.length_cons, passed] at refused
    · rwa [List.length_cons, passed] at here

/-- A lazy repetition behind which everything is refused but at one place continues there. -/
theorem runSparing_eq_of_refused (accepted : ∀ char ∈ taken, accepts char = true)
    (shorter : ∀ front late, taken = front ++ late → late ≠ [] →
      next ⟨offset + front.length, late ++ rest, captures⟩ = none)
    (longer : ∀ more behind, rest = more ++ behind → more ≠ [] →
      next ⟨offset + taken.length + more.length, behind, captures⟩ = none) :
    runSparing accepts captures next offset (taken ++ rest) =
      next ⟨offset + taken.length, rest, captures⟩ := by
  cases here : next ⟨offset + taken.length, rest, captures⟩ with
  | some result => exact runSparing_eq_some accepted shorter here
  | none =>
    rw [runSparing_eq_findSome?, List.findSome?_eq_none_iff]
    intro after found
    obtain ⟨front, behind, cut, -, rfl⟩ := mem_greedyOutcomes.1 (mem_sparingOutcomes.1 found)
    rcases List.append_eq_append_iff.1 cut with ⟨more, rfl, rfl⟩ | ⟨late, rfl, rfl⟩
    · by_cases none : more = []
      · subst none
        simpa using here
      · have refused := longer more behind rfl none
        rwa [Nat.add_assoc, ← List.length_append] at refused
    · by_cases none : late = []
      · subst none
        simpa using here
      · exact shorter front late rfl none

/-- A silent pattern in front of a continuation that never contradicts a result gives that
result, if the continuation gives it behind some text that the pattern spells. -/
theorem run_eq_some_of_isSilent {pattern : Pattern} (silent : pattern.IsSilent)
    (agree : ∀ taken rest, text = taken ++ rest → pattern.Spells offset taken rest →
      AtMost next result ⟨offset + taken.length, rest, captures⟩)
    (found : ∃ taken rest, text = taken ++ rest ∧ pattern.Spells offset taken rest ∧
      next ⟨offset + taken.length, rest, captures⟩ = some result) :
    pattern.run ⟨offset, text, captures⟩ next = some result := by
  apply run_eq_some_of_atMost
  · intro after isAfter
    obtain ⟨taken, rest, cut, spells, rfl⟩ := mem_outcomes_of_isSilent silent isAfter
    exact agree taken rest cut spells
  · obtain ⟨taken, rest, rfl, spells, accepted⟩ := found
    obtain ⟨⟨_, _, others⟩, isAfter, rfl, rfl⟩ := exists_mem_outcomes spells captures
    have kept : others = captures :=
      funext fun part => captures_of_mem_outcomes (silent part) isAfter
    rw [← kept] at accepted
    exact ⟨_, isAfter, accepted⟩

section Search

variable {pattern : Pattern} {found : Captures}

/-- A search finds what matches at the front. -/
theorem searchFrom?_of_some
    (here : pattern.run ⟨offset, text, Captures.none⟩ (fun cursor => some cursor.captures) =
      some found) : pattern.searchFrom? offset text = some found := by
  unfold searchFrom?
  rw [here]

/-- A search passes a character at which nothing matches. -/
theorem searchFrom?_cons {char : Char}
    (nothing : pattern.run ⟨offset, char :: rest, Captures.none⟩
      (fun cursor => some cursor.captures) = none) :
    pattern.searchFrom? offset (char :: rest) = pattern.searchFrom? (offset + 1) rest := by
  rw [searchFrom?, nothing]

/-- A search passes a part of a text at whose characters nothing matches. -/
theorem searchFrom?_append
    (nothing : ∀ front char late, taken = front ++ char :: late →
      pattern.run ⟨offset + front.length, char :: (late ++ rest), Captures.none⟩
        (fun cursor => some cursor.captures) = none) :
    pattern.searchFrom? offset (taken ++ rest) =
      pattern.searchFrom? (offset + taken.length) rest := by
  induction taken generalizing offset with
  | nil => rfl
  | cons first taken inductionHypothesis =>
    have passed (count : Nat) : offset + (count + 1) = offset + 1 + count := by omega
    have here := nothing [] first taken rfl
    rw [List.length_nil, Nat.add_zero] at here
    rw [List.cons_append, searchFrom?_cons here, List.length_cons, passed taken.length]
    refine inductionHypothesis fun front char late cut => ?_
    have behind := nothing (first :: front) char late (by rw [cut, List.cons_append])
    rwa [List.length_cons, passed] at behind

end Search

end Retrace.Pattern
