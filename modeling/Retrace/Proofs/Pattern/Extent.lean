import Retrace.Proofs.Pattern.Preference

/-!
# Where captures lie

A pattern captures only what it consumes: a capture is one from before, or it lies between the
cursor in front of the pattern and the one behind it. A pattern with something in front of it is a
list of patterns that are consumed in turn; `exists_of_run_inTurn` splits a match there.
-/

namespace Retrace.Pattern

variable {α : Type} {next : Continuation α} {result : α} {before after : Cursor}

/-- A match continues behind some outcome. -/
theorem exists_of_run {pattern : Pattern} (matched : pattern.run before next = some result) :
    ∃ after ∈ pattern.outcomes before, next after = some result := by
  rw [run_eq_findSome?] at matched
  exact List.exists_of_findSome?_eq_some matched

/-- At the very front of a text nothing of it is consumed. -/
theorem rest_of_mem_outcomes {pattern : Pattern} {text : List Char}
    (found : after ∈ pattern.outcomes (Cursor.front text)) (atFront : after.offset = 0) :
    after.rest = text := by
  obtain ⟨taken, spelled⟩ := spelled_of_mem_outcomes found
  have passed : after.offset = 0 + taken.length := spelled.offset
  have nothing : taken = [] := List.length_eq_zero_iff.1 (by omega)
  have cut : text = taken ++ after.rest := spelled.rest
  rw [cut, nothing, List.nil_append]

/-- What is not asked about does not matter to a match. -/
theorem run_congr {pattern : Pattern} {other : Continuation α}
    (same : ∀ after ∈ pattern.outcomes before, next after = other after) :
    pattern.run before next = pattern.run before other := by
  rw [run_eq_findSome?, run_eq_findSome?]
  generalize pattern.outcomes before = outcomes at same
  induction outcomes with
  | nil => rfl
  | cons after others inductionHypothesis =>
    obtain ⟨here, behind⟩ := List.forall_mem_cons.1 same
    rw [List.findSome?_cons, List.findSome?_cons, here, inductionHypothesis behind]

/-- Consumes by all patterns in turn and by a last one behind them. -/
def inTurn (fronts : List Pattern) (last : Pattern) : Pattern :=
  fronts.foldr seq last

theorem run_inTurn {fronts : List Pattern} {last : Pattern} :
    (inTurn fronts last).run before next =
      (inTurn fronts empty).run before fun middle => last.run middle next := by
  induction fronts generalizing before with
  | nil => rfl
  | cons first fronts inductionHypothesis => exact congrArg _ (funext fun _ => inductionHypothesis)

/-- A match of patterns in turn is one of the last of them behind an outcome of the others. -/
theorem exists_of_run_inTurn {fronts : List Pattern} {last : Pattern}
    (matched : (inTurn fronts last).run before next = some result) :
    ∃ middle ∈ (inTurn fronts empty).outcomes before, last.run middle next = some result := by
  rw [run_inTurn] at matched
  exact exists_of_run matched

theorem setsPart_inTurn {part : Part} {fronts : List Pattern} {last : Pattern} :
    (inTurn fronts last).setsPart part = (fronts.any (setsPart part) || last.setsPart part) := by
  induction fronts with
  | nil => rfl
  | cons first fronts inductionHypothesis =>
    have unfolded : (inTurn (first :: fronts) last).setsPart part =
        (first.setsPart part || (inTurn fronts last).setsPart part) := rfl
    rw [unfolded, inductionHypothesis, List.any_cons, Bool.or_assoc]

/-- The span lies between two offsets. -/
structure Between (start stop : Nat) (span : Span) : Prop where
  start : start ≤ span.start
  order : span.start ≤ span.stop
  stop : span.stop ≤ stop

/-- Between two cursors nothing was captured that does not lie between them. -/
structure CapturesBetween (before after : Cursor) : Prop where
  forward : before.offset ≤ after.offset
  captured : ∀ part, ∀ span ∈ after.captures part,
    span ∈ before.captures part ∨ Between before.offset after.offset span

namespace CapturesBetween

/-- Where nothing is captured, nothing lies elsewhere. -/
theorem same (forward : before.offset ≤ after.offset) (kept : after.captures = before.captures) :
    CapturesBetween before after where
  forward := forward
  captured := by
    rw [kept]
    exact fun _ _ isCaptured => .inl isCaptured

theorem trans {middle : Cursor} (one : CapturesBetween before middle)
    (other : CapturesBetween middle after) : CapturesBetween before after where
  forward := Nat.le_trans one.forward other.forward
  captured part span isCaptured := by
    rcases other.captured part span isCaptured with earlier | late
    · rcases one.captured part span earlier with earlier | early
      · exact .inl earlier
      · exact .inr ⟨early.start, early.order, Nat.le_trans early.stop other.forward⟩
    · exact .inr ⟨Nat.le_trans one.forward late.start, late.order, late.stop⟩

/-- What is captured between two cursors lies between them. -/
theorem capture (inner : CapturesBetween before after) (part : Part) :
    CapturesBetween before (after.capture part before.offset) where
  forward := inner.forward
  captured other span isCaptured := by
    by_cases same : other = part
    · subst same
      obtain rfl := Option.some.inj ((Captures.set_self _ _ _).symm.trans isCaptured)
      exact .inr ⟨Nat.le_refl _, inner.forward, Nat.le_refl _⟩
    · exact inner.captured other span ((Captures.set_of_ne _ _ same).symm.trans isCaptured)

end CapturesBetween

/-- A pattern captures only what it consumes. -/
theorem capturesBetween_of_mem_outcomes {pattern : Pattern}
    (found : after ∈ pattern.outcomes before) : CapturesBetween before after := by
  have forward {pattern : Pattern} {before after : Cursor}
      (found : after ∈ pattern.outcomes before) : before.offset ≤ after.offset := by
    obtain ⟨taken, spelled⟩ := spelled_of_mem_outcomes found
    exact spelled.offset ▸ Nat.le_add_right _ _
  have silently {pattern : Pattern} {before after : Cursor} (silent : pattern.IsSilent)
      (found : after ∈ pattern.outcomes before) : CapturesBetween before after :=
    .same (forward found) (funext fun part => captures_of_mem_outcomes (silent part) found)
  induction pattern generalizing before after with
  | empty => exact silently (fun _ => rfl) found
  | one => exact silently (fun _ => rfl) found
  | atStart => exact silently (fun _ => rfl) found
  | atEnd => exact silently (fun _ => rfl) found
  | greedy => exact silently (fun _ => rfl) found
  | sparing => exact silently (fun _ => rfl) found
  | seq first second firstHypothesis secondHypothesis =>
    obtain ⟨middle, one, other⟩ := List.mem_flatMap.1 found
    exact (firstHypothesis one).trans (secondHypothesis other)
  | either first second firstHypothesis secondHypothesis =>
    rcases List.mem_append.1 found with found | found
    · exact firstHypothesis found
    · exact secondHypothesis found
  | many body bodyHypothesis =>
    refine @manyOutcomes_keep _ (CapturesBetween before) ?_ _ _ _ found (.same (Nat.le_refl _) rfl)
    exact fun once between => between.trans (bodyHypothesis once)
  | capture part body bodyHypothesis =>
    obtain ⟨inner, isInner, rfl⟩ := List.mem_map.1 found
    exact (bodyHypothesis isInner).capture part

end Retrace.Pattern
