import Retrace.Pattern.Outcomes

/-!
# What a pattern spells

`Spells` relates a pattern to the texts that it can consume. It knows nothing of captures and
nothing of preferences, so it says that something cannot be matched, or that it can be matched
somehow; which of several matches is taken is left to the order of the outcomes. The outcomes of a
pattern are exactly its spellings: `spelled_of_mem_outcomes` and `exists_mem_outcomes`.
-/

namespace Retrace.Pattern

/-- The pattern can consume `taken` behind `offset` characters and in front of `rest`. -/
inductive Spells : Pattern → Nat → List Char → List Char → Prop where
  | empty {offset : Nat} {rest : List Char} : Spells .empty offset [] rest
  | one {accepts : Char → Bool} {offset : Nat} {char : Char} {rest : List Char}
      (accepted : accepts char = true) : Spells (.one accepts) offset [char] rest
  | atStart {rest : List Char} : Spells .atStart 0 [] rest
  | atEnd {offset : Nat} {rest : List Char} (last : rest = [] ∨ rest = ['\n']) :
      Spells .atEnd offset [] rest
  | seq {first second : Pattern} {offset : Nat} {front back rest : List Char}
      (before : Spells first offset front (back ++ rest))
      (behind : Spells second (offset + front.length) back rest) :
      Spells (.seq first second) offset (front ++ back) rest
  | left {first second : Pattern} {offset : Nat} {taken rest : List Char}
      (chosen : Spells first offset taken rest) : Spells (.either first second) offset taken rest
  | right {first second : Pattern} {offset : Nat} {taken rest : List Char}
      (chosen : Spells second offset taken rest) : Spells (.either first second) offset taken rest
  | greedy {accepts : Char → Bool} {offset : Nat} {taken rest : List Char}
      (accepted : ∀ char ∈ taken, accepts char = true) : Spells (.greedy accepts) offset taken rest
  | sparing {accepts : Char → Bool} {offset : Nat} {taken rest : List Char}
      (accepted : ∀ char ∈ taken, accepts char = true) : Spells (.sparing accepts) offset taken rest
  | stop {body : Pattern} {offset : Nat} {rest : List Char} : Spells (.many body) offset [] rest
  | again {body : Pattern} {offset : Nat} {front back rest : List Char}
      (once : Spells body offset front (back ++ rest))
      (others : Spells (.many body) (offset + front.length) back rest) :
      Spells (.many body) offset (front ++ back) rest
  | capture {part : Part} {body : Pattern} {offset : Nat} {taken rest : List Char}
      (inner : Spells body offset taken rest) : Spells (.capture part body) offset taken rest

section Inversion

variable {accepts : Char → Bool} {first second body : Pattern} {part : Part} {offset : Nat}
  {taken rest : List Char}

@[simp] theorem spells_empty : empty.Spells offset taken rest ↔ taken = [] := by
  constructor
  · rintro ⟨⟩
    rfl
  · rintro rfl
    exact .empty

@[simp] theorem spells_one :
    (one accepts).Spells offset taken rest ↔ ∃ char, taken = [char] ∧ accepts char = true := by
  constructor
  · rintro ⟨⟩
    exact ⟨_, rfl, by assumption⟩
  · rintro ⟨char, rfl, accepted⟩
    exact .one accepted

@[simp] theorem spells_atStart : atStart.Spells offset taken rest ↔ taken = [] ∧ offset = 0 := by
  constructor
  · rintro ⟨⟩
    exact ⟨rfl, rfl⟩
  · rintro ⟨rfl, rfl⟩
    exact .atStart

@[simp] theorem spells_atEnd :
    atEnd.Spells offset taken rest ↔ taken = [] ∧ (rest = [] ∨ rest = ['\n']) := by
  constructor
  · rintro ⟨⟩
    exact ⟨rfl, by assumption⟩
  · rintro ⟨rfl, last⟩
    exact .atEnd last

theorem spells_seq : (seq first second).Spells offset taken rest ↔
    ∃ front back, taken = front ++ back ∧ first.Spells offset front (back ++ rest) ∧
      second.Spells (offset + front.length) back rest := by
  constructor
  · rintro ⟨⟩
    exact ⟨_, _, rfl, by assumption, by assumption⟩
  · rintro ⟨front, back, rfl, before, behind⟩
    exact .seq before behind

@[simp] theorem spells_either : (either first second).Spells offset taken rest ↔
    first.Spells offset taken rest ∨ second.Spells offset taken rest := by
  constructor
  · intro spelled
    cases spelled with
    | left chosen => exact .inl chosen
    | right chosen => exact .inr chosen
  · rintro (chosen | chosen)
    · exact .left chosen
    · exact .right chosen

@[simp] theorem spells_greedy :
    (greedy accepts).Spells offset taken rest ↔ ∀ char ∈ taken, accepts char = true := by
  constructor
  · rintro ⟨⟩
    assumption
  · exact .greedy

@[simp] theorem spells_sparing :
    (sparing accepts).Spells offset taken rest ↔ ∀ char ∈ taken, accepts char = true := by
  constructor
  · rintro ⟨⟩
    assumption
  · exact .sparing

@[simp] theorem spells_capture :
    (capture part body).Spells offset taken rest ↔ body.Spells offset taken rest := by
  constructor
  · rintro ⟨⟩
    assumption
  · exact .capture

@[simp] theorem spells_optional :
    (optional body).Spells offset taken rest ↔ body.Spells offset taken rest ∨ taken = [] := by
  rw [optional, spells_either, spells_empty]

@[simp] theorem spells_char {wanted : Char} :
    (char wanted).Spells offset taken rest ↔ taken = [wanted] := by
  simp [char]

/-- At least one character of a kind is a text of such characters that is not empty. -/
theorem spells_greedyOne : (greedyOne accepts).Spells offset taken rest ↔
    taken ≠ [] ∧ ∀ char ∈ taken, accepts char = true := by
  rw [greedyOne, spells_seq]
  constructor
  · rintro ⟨_, back, rfl, front, others⟩
    obtain ⟨first, rfl, accepted⟩ := spells_one.1 front
    exact ⟨by simp, List.forall_mem_cons.2 ⟨accepted, spells_greedy.1 others⟩⟩
  · rintro ⟨nonempty, accepted⟩
    obtain ⟨first, others, rfl⟩ := List.exists_cons_of_ne_nil nonempty
    obtain ⟨accepted, rest⟩ := List.forall_mem_cons.1 accepted
    exact ⟨[first], others, rfl, .one accepted, .greedy rest⟩

/-- Patterns in turn spell what the first one spells and then what the others do. -/
theorem spells_all_cons {others : List Pattern} :
    (all (first :: others)).Spells offset taken rest ↔
      ∃ front back, taken = front ++ back ∧ first.Spells offset front (back ++ rest) ∧
        (all others).Spells (offset + front.length) back rest := by
  cases others with
  | nil => simp [all]
  | cons second others => exact spells_seq

/-- A choice of several patterns spells what one of them spells. -/
theorem spells_anyOf {last : Pattern} {patterns : List Pattern} :
    (anyOf last patterns).Spells offset taken rest ↔
      (∃ pattern ∈ patterns, pattern.Spells offset taken rest) ∨
        last.Spells offset taken rest := by
  induction patterns with
  | nil => simp [anyOf]
  | cons first others inductionHypothesis =>
    rw [anyOf, spells_either, inductionHypothesis]
    simp [or_assoc]

/-- A word spells every text that folds to it. -/
theorem spells_word {wanted : String} : (word wanted).Spells offset taken rest ↔
    taken.map Text.foldCase = wanted.toList := by
  unfold word
  induction wanted.toList generalizing offset taken with
  | nil => simp [all]
  | cons letter letters inductionHypothesis =>
    rw [List.map_cons, spells_all_cons]
    constructor
    · rintro ⟨_, others, rfl, one, more⟩
      obtain ⟨char, rfl, folded⟩ := spells_one.1 one
      rw [List.singleton_append, List.map_cons, inductionHypothesis.1 more,
        of_decide_eq_true folded]
    · intro folded
      obtain ⟨char, others, rfl, isLetter, more⟩ := List.map_eq_cons_iff.1 folded
      exact ⟨[char], others, rfl, .one (decide_eq_true isLetter), inductionHypothesis.2 more⟩

end Inversion

/-- The outcomes of consuming characters of a kind, in whichever order. -/
theorem mem_greedyOutcomes {accepts : Char → Bool} {captures : Captures} {offset : Nat}
    {text : List Char} {after : Cursor} :
    after ∈ greedyOutcomes accepts captures offset text ↔
      ∃ taken rest, text = taken ++ rest ∧ (∀ char ∈ taken, accepts char = true) ∧
        after = ⟨offset + taken.length, rest, captures⟩ := by
  induction text generalizing offset with
  | nil =>
    rw [greedyOutcomes, List.mem_singleton]
    constructor
    · rintro rfl
      exact ⟨[], [], rfl, by simp, rfl⟩
    · rintro ⟨taken, rest, cut, -, rfl⟩
      obtain ⟨rfl, rfl⟩ := List.append_eq_nil_iff.1 cut.symm
      rfl
  | cons char text inductionHypothesis =>
    have moved (count : Nat) : offset + 1 + count = offset + (count + 1) := by omega
    constructor
    · intro found
      have stays : after = ⟨offset, char :: text, captures⟩ →
          ∃ taken rest, char :: text = taken ++ rest ∧ (∀ char ∈ taken, accepts char = true) ∧
            after = ⟨offset + taken.length, rest, captures⟩ := by
        rintro rfl
        exact ⟨[], char :: text, rfl, by simp, rfl⟩
      rw [greedyOutcomes] at found
      split at found
      next accepted =>
        rcases List.mem_append.1 found with found | found
        · obtain ⟨taken, rest, rfl, kept, rfl⟩ := inductionHypothesis.1 found
          exact ⟨char :: taken, rest, rfl, List.forall_mem_cons.2 ⟨accepted, kept⟩, by
            rw [moved, List.length_cons]⟩
        · exact stays (List.mem_singleton.1 found)
      next => exact stays (List.mem_singleton.1 found)
    · rintro ⟨taken, rest, cut, kept, rfl⟩
      rw [greedyOutcomes]
      cases taken with
      | nil =>
        rw [List.nil_append] at cut
        subst cut
        split <;> simp
      | cons first taken =>
        obtain ⟨rfl, rfl⟩ := List.cons_eq_cons.1 cut
        obtain ⟨accepted, kept⟩ := List.forall_mem_cons.1 kept
        rw [if_pos accepted, List.mem_append, inductionHypothesis]
        exact .inl ⟨taken, rest, rfl, kept, by rw [moved, List.length_cons]⟩

/-- Consuming few characters has the outcomes of consuming many, in another order. -/
theorem mem_sparingOutcomes {accepts : Char → Bool} {captures : Captures} {offset : Nat}
    {text : List Char} {after : Cursor} :
    after ∈ sparingOutcomes accepts captures offset text ↔
      after ∈ greedyOutcomes accepts captures offset text := by
  induction text generalizing offset with
  | nil => rfl
  | cons char text inductionHypothesis =>
    by_cases accepted : accepts char = true
    · simp only [sparingOutcomes, greedyOutcomes, accepted, if_true, List.mem_cons, List.mem_append,
        List.not_mem_nil, or_false, inductionHypothesis]
      exact or_comm
    · simp [sparingOutcomes, greedyOutcomes, accepted]

/-- Between two cursors the pattern consumed a text that it spells. -/
structure Spelled (pattern : Pattern) (before after : Cursor) (taken : List Char) : Prop where
  rest : before.rest = taken ++ after.rest
  offset : after.offset = before.offset + taken.length
  spells : pattern.Spells before.offset taken after.rest

namespace Spelled

/-- Two patterns in turn consume the text of the one and then that of the other. -/
theorem append {first second : Pattern} {before middle after : Cursor} {front back : List Char}
    (one : Spelled first before middle front) (other : Spelled second middle after back) :
    Spelled (.seq first second) before after (front ++ back) where
  rest := by rw [one.rest, other.rest, List.append_assoc]
  offset := by rw [other.offset, one.offset, List.length_append, Nat.add_assoc]
  spells := by
    refine .seq ?_ ?_
    · rw [← other.rest]
      exact one.spells
    · rw [← one.offset]
      exact other.spells

end Spelled

theorem spelled_of_mem_manyOutcomes {body : Pattern}
    (bodySpelled : ∀ {before after : Cursor}, after ∈ body.outcomes before →
      ∃ taken, Spelled body before after taken)
    {count : Nat} {before after : Cursor} (found : after ∈ manyOutcomes body.outcomes count before) :
    ∃ taken, Spelled (.many body) before after taken := by
  induction count generalizing before with
  | zero =>
    rw [manyOutcomes, List.mem_singleton] at found
    subst found
    exact ⟨[], rfl, rfl, .stop⟩
  | succ count inductionHypothesis =>
    rw [manyOutcomes, List.mem_append, List.mem_flatMap, List.mem_singleton] at found
    rcases found with ⟨middle, once, others⟩ | rfl
    · obtain ⟨front, one⟩ := bodySpelled once
      obtain ⟨back, more⟩ := inductionHypothesis others
      have joined := one.append more
      refine ⟨front ++ back, joined.rest, joined.offset, ?_⟩
      obtain ⟨front, back, cut, first, second⟩ := spells_seq.1 joined.spells
      rw [cut]
      exact .again first second
    · exact ⟨[], rfl, rfl, .stop⟩

/-- Every outcome of a pattern comes from a text that the pattern spells. -/
theorem spelled_of_mem_outcomes {pattern : Pattern} {before after : Cursor}
    (found : after ∈ pattern.outcomes before) : ∃ taken, Spelled pattern before after taken := by
  induction pattern generalizing before after with
  | empty =>
    rw [outcomes, List.mem_singleton] at found
    subst found
    exact ⟨[], rfl, rfl, .empty⟩
  | one accepts =>
    obtain ⟨offset, text, captures⟩ := before
    cases text with
    | nil => cases found
    | cons char rest =>
      by_cases accepted : accepts char = true
      · simp only [outcomes, accepted, if_true, List.mem_singleton] at found
        subst found
        exact ⟨[char], rfl, rfl, .one accepted⟩
      · simp [outcomes, accepted] at found
  | atStart =>
    rw [outcomes] at found
    split at found
    next atFront =>
      rw [List.mem_singleton] at found
      subst found
      exact ⟨[], rfl, rfl, spells_atStart.2 ⟨rfl, atFront⟩⟩
    next => cases found
  | atEnd =>
    rw [outcomes] at found
    split at found
    next last =>
      rw [List.mem_singleton] at found
      subst found
      exact ⟨[], rfl, rfl, .atEnd (by simpa using last)⟩
    next => cases found
  | seq first second firstHypothesis secondHypothesis =>
    obtain ⟨middle, before, behind⟩ := List.mem_flatMap.1 found
    obtain ⟨front, one⟩ := firstHypothesis before
    obtain ⟨back, other⟩ := secondHypothesis behind
    exact ⟨front ++ back, one.append other⟩
  | either first second firstHypothesis secondHypothesis =>
    rcases List.mem_append.1 found with found | found
    · obtain ⟨taken, spelled⟩ := firstHypothesis found
      exact ⟨taken, spelled.rest, spelled.offset, .left spelled.spells⟩
    · obtain ⟨taken, spelled⟩ := secondHypothesis found
      exact ⟨taken, spelled.rest, spelled.offset, .right spelled.spells⟩
  | greedy accepts =>
    obtain ⟨taken, rest, cut, accepted, rfl⟩ := mem_greedyOutcomes.1 found
    exact ⟨taken, cut, rfl, .greedy accepted⟩
  | sparing accepts =>
    obtain ⟨taken, rest, cut, accepted, rfl⟩ := mem_greedyOutcomes.1 (mem_sparingOutcomes.1 found)
    exact ⟨taken, cut, rfl, .sparing accepted⟩
  | many body bodyHypothesis => exact spelled_of_mem_manyOutcomes bodyHypothesis found
  | capture part body bodyHypothesis =>
    obtain ⟨inner, isInner, rfl⟩ := List.mem_map.1 found
    obtain ⟨taken, spelled⟩ := bodyHypothesis isInner
    exact ⟨taken, spelled.rest, spelled.offset, .capture spelled.spells⟩

/-- The cursor behind a text that was consumed, with whatever was captured on the way. -/
structure Reached (after : Cursor) (offset : Nat) (taken rest : List Char) : Prop where
  rest : after.rest = rest
  offset : after.offset = offset + taken.length

theorem exists_mem_manyOutcomes {body : Pattern}
    (bodyOutcomes : ∀ {offset : Nat} {taken rest : List Char}, body.Spells offset taken rest →
      ∀ captures, ∃ after ∈ body.outcomes ⟨offset, taken ++ rest, captures⟩,
        Reached after offset taken rest)
    {offset : Nat} {taken rest : List Char} (spells : (many body).Spells offset taken rest)
    (captures : Captures) {count : Nat} (enough : taken.length ≤ count) :
    ∃ after ∈ manyOutcomes body.outcomes count ⟨offset, taken ++ rest, captures⟩,
      Reached after offset taken rest := by
  generalize repetition : many body = pattern at spells
  induction spells generalizing captures count with
  | @stop _ offset rest =>
    refine ⟨⟨offset, rest, captures⟩, ?_, rfl, rfl⟩
    cases count <;> simp [manyOutcomes]
  | @again _ offset front back rest once others _ othersHypothesis =>
    cases repetition
    -- A round that consumes nothing is left out; any other one leaves fewer rounds to make.
    by_cases idle : front = []
    · subst idle
      exact othersHypothesis captures (by simpa using enough) rfl
    · have positive := List.length_pos_iff.2 idle
      rw [List.length_append] at enough
      cases count with
      | zero => omega
      | succ count =>
        obtain ⟨⟨_, _, middleCaptures⟩, isMiddle, rfl, rfl⟩ := bodyOutcomes once captures
        obtain ⟨after, isAfter, behind, passed⟩ :=
          othersHypothesis middleCaptures (show back.length ≤ count by omega) rfl
        refine ⟨after, ?_, behind, ?_⟩
        · rw [manyOutcomes, List.mem_append, List.mem_flatMap, List.append_assoc]
          exact .inl ⟨_, isMiddle, isAfter⟩
        · rw [passed, List.length_append, Nat.add_assoc]
  | _ => cases repetition

/-- Every text that a pattern spells in front of a cursor gives an outcome there. -/
theorem exists_mem_outcomes {pattern : Pattern} {offset : Nat} {taken rest : List Char}
    (spells : pattern.Spells offset taken rest) (captures : Captures) :
    ∃ after ∈ pattern.outcomes ⟨offset, taken ++ rest, captures⟩,
      Reached after offset taken rest := by
  induction pattern generalizing offset taken rest captures with
  | empty =>
    cases spells
    exact ⟨_, List.mem_singleton_self _, rfl, rfl⟩
  | one accepts =>
    obtain ⟨char, rfl, accepted⟩ := spells_one.1 spells
    exact ⟨⟨offset + 1, rest, captures⟩, by simp [outcomes, accepted, Cursor.step], rfl, rfl⟩
  | atStart =>
    obtain ⟨rfl, rfl⟩ := spells_atStart.1 spells
    exact ⟨⟨0, rest, captures⟩, by simp [outcomes], rfl, rfl⟩
  | atEnd =>
    obtain ⟨rfl, last⟩ := spells_atEnd.1 spells
    exact ⟨⟨offset, rest, captures⟩, by simpa [outcomes] using last, rfl, rfl⟩
  | seq first second firstHypothesis secondHypothesis =>
    obtain ⟨front, back, rfl, before, behind⟩ := spells_seq.1 spells
    obtain ⟨⟨_, _, middleCaptures⟩, isMiddle, rfl, rfl⟩ := firstHypothesis before captures
    obtain ⟨after, isAfter, left, passed⟩ := secondHypothesis behind middleCaptures
    refine ⟨after, ?_, left, ?_⟩
    · rw [List.append_assoc]
      exact List.mem_flatMap.2 ⟨_, isMiddle, isAfter⟩
    · rw [passed, List.length_append, Nat.add_assoc]
  | either first second firstHypothesis secondHypothesis =>
    rcases spells_either.1 spells with chosen | chosen
    · obtain ⟨after, isAfter, reached⟩ := firstHypothesis chosen captures
      exact ⟨after, List.mem_append_left _ isAfter, reached⟩
    · obtain ⟨after, isAfter, reached⟩ := secondHypothesis chosen captures
      exact ⟨after, List.mem_append_right _ isAfter, reached⟩
  | greedy accepts =>
    exact ⟨_, mem_greedyOutcomes.2 ⟨taken, rest, rfl, spells_greedy.1 spells, rfl⟩, rfl, rfl⟩
  | sparing accepts =>
    refine ⟨⟨offset + taken.length, rest, captures⟩, mem_sparingOutcomes.2 ?_, rfl, rfl⟩
    exact mem_greedyOutcomes.2 ⟨taken, rest, rfl, spells_sparing.1 spells, rfl⟩
  | many body bodyHypothesis =>
    exact exists_mem_manyOutcomes bodyHypothesis spells captures (by simp)
  | capture part body bodyHypothesis =>
    obtain ⟨after, isAfter, left, passed⟩ := bodyHypothesis (spells_capture.1 spells) captures
    exact ⟨_, List.mem_map_of_mem isAfter, left, passed⟩

/-- A text matches in front exactly if the pattern spells a part of it there. -/
theorem matchFront?_isSome_iff {pattern : Pattern} {text : List Char} :
    (pattern.matchFront? text).isSome ↔
      ∃ taken rest, text = taken ++ rest ∧ pattern.Spells 0 taken rest := by
  rw [matchFront?_eq_head?, Option.isSome_map, List.isSome_head?]
  constructor
  · intro some
    obtain ⟨after, isAfter⟩ := List.exists_mem_of_ne_nil _ some
    obtain ⟨taken, spelled⟩ := spelled_of_mem_outcomes isAfter
    exact ⟨taken, after.rest, spelled.rest, spelled.spells⟩
  · rintro ⟨taken, rest, rfl, spells⟩
    obtain ⟨after, isAfter, -⟩ := exists_mem_outcomes spells Captures.none
    exact List.ne_nil_of_mem isAfter

end Retrace.Pattern
