import Retrace.Pattern.Basic

/-!
# The outcomes of a pattern

A pattern has a list of outcomes at a cursor: every way in which it succeeds, the preferred ways
first. The list says what a pattern means without the backtracking that finds a match.
`run_eq_findSome?` says that a match is the first outcome that the continuation accepts.
-/

namespace Retrace.Pattern

/-- The outcomes of consuming characters of a kind, more of them first. -/
def greedyOutcomes (accepts : Char → Bool) (captures : Captures) :
    Nat → List Char → List Cursor
  | offset, [] => [⟨offset, [], captures⟩]
  | offset, char :: rest =>
    if accepts char then
      greedyOutcomes accepts captures (offset + 1) rest ++ [⟨offset, char :: rest, captures⟩]
    else [⟨offset, char :: rest, captures⟩]

/-- The outcomes of consuming characters of a kind, fewer of them first. -/
def sparingOutcomes (accepts : Char → Bool) (captures : Captures) :
    Nat → List Char → List Cursor
  | offset, [] => [⟨offset, [], captures⟩]
  | offset, char :: rest =>
    ⟨offset, char :: rest, captures⟩ ::
      if accepts char then sparingOutcomes accepts captures (offset + 1) rest else []

/-- The outcomes of repeating a step at most `count` times, more repetitions first. -/
def manyOutcomes (step : Cursor → List Cursor) : Nat → Cursor → List Cursor
  | 0, cursor => [cursor]
  | count + 1, cursor => (step cursor).flatMap (manyOutcomes step count) ++ [cursor]

/-- The outcomes of a pattern at a cursor. -/
def outcomes : Pattern → Cursor → List Cursor
  | .empty, cursor => [cursor]
  | .one accepts, cursor =>
    match cursor.rest with
    | [] => []
    | char :: rest => if accepts char then [cursor.step rest] else []
  | .atStart, cursor => if cursor.offset = 0 then [cursor] else []
  | .atEnd, cursor => if cursor.rest.isEmpty || cursor.rest = ['\n'] then [cursor] else []
  | .seq first second, cursor => (first.outcomes cursor).flatMap second.outcomes
  | .either first second, cursor => first.outcomes cursor ++ second.outcomes cursor
  | .greedy accepts, cursor => greedyOutcomes accepts cursor.captures cursor.offset cursor.rest
  | .sparing accepts, cursor => sparingOutcomes accepts cursor.captures cursor.offset cursor.rest
  | .many body, cursor => manyOutcomes body.outcomes cursor.rest.length cursor
  | .capture part body, cursor =>
    (body.outcomes cursor).map (·.capture part cursor.offset)

theorem runGreedy_eq_findSome? {α : Type} (accepts : Char → Bool) (captures : Captures)
    (next : Continuation α) (offset : Nat) (text : List Char) :
    runGreedy accepts captures next offset text =
      (greedyOutcomes accepts captures offset text).findSome? next := by
  induction text generalizing offset with
  | nil => simp [runGreedy, greedyOutcomes]
  | cons char rest inductionHypothesis =>
    by_cases accepted : accepts char = true
    · simp only [runGreedy, greedyOutcomes, accepted, if_true, List.findSome?_append,
        inductionHypothesis]
      cases (greedyOutcomes accepts captures (offset + 1) rest).findSome? next <;> simp
    · simp [runGreedy, greedyOutcomes, accepted]

theorem runSparing_eq_findSome? {α : Type} (accepts : Char → Bool) (captures : Captures)
    (next : Continuation α) (offset : Nat) (text : List Char) :
    runSparing accepts captures next offset text =
      (sparingOutcomes accepts captures offset text).findSome? next := by
  induction text generalizing offset with
  | nil => simp [runSparing, sparingOutcomes]
  | cons char rest inductionHypothesis =>
    simp only [runSparing, sparingOutcomes, List.findSome?_cons]
    cases next ⟨offset, char :: rest, captures⟩ with
    | some result => rfl
    | none =>
      by_cases accepted : accepts char = true
      · simp [accepted, inductionHypothesis]
      · simp [accepted]

theorem findSome?_flatMap_eq {α β γ : Type} (items : List α) (expand : α → List β)
    (accept : β → Option γ) :
    (items.flatMap expand).findSome? accept =
      items.findSome? fun item => (expand item).findSome? accept := by
  induction items with
  | nil => rfl
  | cons item items inductionHypothesis =>
    simp only [List.flatMap_cons, List.findSome?_append, inductionHypothesis, List.findSome?_cons]
    cases (expand item).findSome? accept <;> rfl

theorem runMany_eq_findSome? {α : Type} (body : Pattern) (next : Continuation α)
    (bodyEquality : ∀ (cursor : Cursor) (next : Continuation α),
      body.run cursor next = (body.outcomes cursor).findSome? next)
    (count : Nat) (cursor : Cursor) :
    runMany (fun cursor next => body.run cursor next) next count cursor =
      (manyOutcomes body.outcomes count cursor).findSome? next := by
  induction count generalizing cursor with
  | zero => simp [runMany, manyOutcomes]
  | succ count inductionHypothesis =>
    have rest : runMany (fun cursor next => body.run cursor next) next count =
        fun cursor => (manyOutcomes body.outcomes count cursor).findSome? next :=
      funext inductionHypothesis
    rw [runMany, rest, bodyEquality, manyOutcomes, List.findSome?_append, findSome?_flatMap_eq]
    cases (body.outcomes cursor).findSome?
      fun after => (manyOutcomes body.outcomes count after).findSome? next <;> simp

/-- A match continues behind the first outcome that the continuation accepts. -/
theorem run_eq_findSome? {α : Type} (pattern : Pattern) (cursor : Cursor)
    (next : Continuation α) :
    pattern.run cursor next = (pattern.outcomes cursor).findSome? next := by
  induction pattern generalizing cursor next with
  | empty => simp [run, outcomes]
  | one accepts =>
    cases text : cursor.rest with
    | nil => simp [run, outcomes, text]
    | cons char rest =>
      by_cases accepted : accepts char = true <;> simp [run, outcomes, text, accepted]
  | atStart =>
    by_cases atFront : cursor.offset = 0 <;> simp [run, outcomes, atFront]
  | atEnd =>
    simp only [run, outcomes]
    split <;> simp
  | seq first second firstHypothesis secondHypothesis =>
    simp only [run, outcomes, firstHypothesis, secondHypothesis, findSome?_flatMap_eq]
  | either first second firstHypothesis secondHypothesis =>
    simp only [run, outcomes, firstHypothesis, secondHypothesis, List.findSome?_append]
    cases (first.outcomes cursor).findSome? next <;> rfl
  | greedy accepts => exact runGreedy_eq_findSome? accepts _ next _ _
  | sparing accepts => exact runSparing_eq_findSome? accepts _ next _ _
  | many body bodyHypothesis => exact runMany_eq_findSome? body next bodyHypothesis _ cursor
  | capture part body bodyHypothesis =>
    simp only [run, outcomes, bodyHypothesis, List.findSome?_map]
    rfl

/-- A match in front of a text is the first outcome there. -/
theorem matchFront?_eq_head? (pattern : Pattern) (text : List Char) :
    pattern.matchFront? text = ((pattern.outcomes (Cursor.front text)).head?).map (·.captures) := by
  rw [matchFront?, run_eq_findSome?]
  cases pattern.outcomes (Cursor.front text) <;> rfl

end Retrace.Pattern
