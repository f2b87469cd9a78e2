import Retrace.Proofs.Pattern.Extent
import Retrace.Proofs.Text.Letters

/-!
# Blanks behind a text

What follows a pattern is settled if blanks behind the text do not matter to it and it decides at
the end of the text alike, wherever that is. Whether a pattern in front of something settled is
settled is decided by whether it could consume such blanks itself: it cannot if it takes no blanks,
and it may if what follows refuses the end of the text, since then it is refused behind any of them.
-/

namespace Retrace.Pattern

variable {α : Type} {next : Continuation α} {accepts : Char → Bool} {accepting : Bool}
  {pattern first second : Pattern} {captures : Captures} {offset : Nat} {blanks text : List Char}

/-- Blanks behind the text do not matter, and at its end there is a result or there is none. -/
structure Settled (next : Continuation α) (accepting : Bool) : Prop where
  steady (offset : Nat) (text : List Char) (captures : Captures) {blanks : List Char} :
    (∀ char ∈ blanks, Text.isBlank char = true) →
    next ⟨offset, text ++ blanks, captures⟩ = next ⟨offset, text, captures⟩
  atEnd (offset : Nat) (captures : Captures) :
    (next ⟨offset, [], captures⟩).isSome = accepting

/-- No blank is of the kind. -/
def RefusesBlanks (accepts : Char → Bool) : Prop :=
  ∀ char, Text.isBlank char = true → accepts char = false

namespace Settled

/-- In front of blanks only, it is as at the end. -/
theorem isSome_of_blank (settled : Settled next accepting)
    (blank : ∀ char ∈ blanks, Text.isBlank char = true) :
    (next ⟨offset, blanks, captures⟩).isSome = accepting := by
  rw [← settled.atEnd offset captures, ← settled.steady offset [] captures blank, List.nil_append]

/-- What refuses the end refuses blanks. -/
theorem eq_none_of_blank (settled : Settled next false)
    (blank : ∀ char ∈ blanks, Text.isBlank char = true) :
    next ⟨offset, blanks, captures⟩ = none := by
  rw [← Option.not_isSome_iff_eq_none, settled.isSome_of_blank blank]
  exact Bool.false_ne_true

end Settled

/-- One character settles what comes before it if it is no blank or what follows refuses the end. -/
theorem settled_one (settled : Settled next accepting)
    (kept : RefusesBlanks accepts ∨ accepting = false) :
    Settled ((one accepts).run · next) false where
  steady offset text captures blanks blank := by
    cases text with
    | cons char text =>
      rw [List.cons_append]
      simp only [run, Cursor.step, settled.steady _ _ _ blank]
    | nil =>
      cases blanks with
      | nil => rfl
      | cons char blanks =>
        obtain ⟨isBlank, others⟩ := List.forall_mem_cons.1 blank
        simp only [run, List.nil_append, Cursor.step]
        rcases kept with refuses | rfl
        · rw [refuses char isBlank]
          rfl
        · rw [settled.eq_none_of_blank others, ite_self]
  atEnd offset captures := rfl

/-- The front of the text settles what comes before it if what follows refuses the end. -/
theorem settled_atStart (settled : Settled next false) : Settled (atStart.run · next) false where
  steady offset text captures _ blank := by
    simp only [run, settled.steady _ _ _ blank]
  atEnd offset captures := by
    simp only [run, settled.eq_none_of_blank (List.forall_mem_nil _), ite_self]
    rfl

/-- A choice is settled if both of its sides are. -/
theorem settled_either {one other : Bool} (left : Settled (first.run · next) one)
    (right : Settled (second.run · next) other) :
    Settled ((either first second).run · next) (one || other) where
  steady offset text captures _ blank := by
    simp only [run, left.steady _ _ _ blank, right.steady _ _ _ blank]
  atEnd offset captures := by
    simp only [run, ← left.atEnd offset captures, ← right.atEnd offset captures]
    cases first.run ⟨offset, [], captures⟩ next <;> rfl

/-- Many characters settle what comes before them if none is a blank or what follows refuses the
end. -/
theorem settled_greedy (settled : Settled next accepting)
    (kept : RefusesBlanks accepts ∨ accepting = false) :
    Settled ((greedy accepts).run · next) accepting where
  steady offset text captures blanks blank := by
    simp only [run]
    induction text generalizing offset with
    | cons char text inductionHypothesis =>
      have here := settled.steady offset (char :: text) captures blank
      rw [List.cons_append] at here ⊢
      rw [runGreedy, runGreedy, inductionHypothesis, here]
    | nil =>
      rw [List.nil_append]
      refine Eq.trans ?_ (settled.steady offset [] captures blank)
      rcases kept with refuses | rfl
      · exact runGreedy_of_stop fun char isHead =>
          refuses char (blank char (List.mem_of_head? isHead))
      · refine runGreedy_eq_of_refused fun more behind cut _ _ => ?_
        subst cut
        exact settled.eq_none_of_blank (List.forall_mem_append.1 blank).2
  atEnd offset captures := settled.atEnd offset captures

/-- Few characters settle what comes before them: there are never fewer of them for the blanks. -/
theorem settled_sparing (settled : Settled next accepting) :
    Settled ((sparing accepts).run · next) accepting where
  steady offset text captures blanks blank := by
    simp only [run]
    induction text generalizing offset with
    | cons char text inductionHypothesis =>
      have here := settled.steady offset (char :: text) captures blank
      rw [List.cons_append] at here ⊢
      rw [runSparing, runSparing, inductionHypothesis, here]
    | nil =>
      rw [List.nil_append]
      refine Eq.trans ?_ (settled.steady offset [] captures blank)
      cases accepting with
      | true =>
        have isSome : (next ⟨offset, blanks, captures⟩).isSome = true :=
          settled.isSome_of_blank blank
        obtain ⟨result, here⟩ := Option.isSome_iff_exists.1 isSome
        rw [runSparing_of_some here, List.nil_append, here]
      | false =>
        have refused : next ⟨offset, blanks, captures⟩ = none := settled.eq_none_of_blank blank
        rw [List.nil_append, refused, runSparing_eq_findSome?, List.findSome?_eq_none_iff]
        intro after found
        obtain ⟨front, behind, rfl, -, rfl⟩ := mem_greedyOutcomes.1 (mem_sparingOutcomes.1 found)
        exact settled.eq_none_of_blank (List.forall_mem_append.1 blank).2
  atEnd offset captures := settled.atEnd offset captures

/-- A capture is settled if its pattern is, wherever the capture begins. -/
theorem settled_capture {part : Part} {other : Bool} (settled : Settled next accepting)
    (body : ∀ {next : Continuation α}, Settled next accepting →
      Settled (pattern.run · next) other) :
    Settled ((capture part pattern).run · next) other := by
  have inner (start : Nat) : Settled (fun after => next (after.capture part start)) accepting :=
    ⟨fun offset text _ _ blank => settled.steady offset text _ blank,
      fun offset _ => settled.atEnd offset _⟩
  exact ⟨
    fun offset text captures _ blank => (body (inner offset)).steady offset text captures blank,
    fun offset captures => (body (inner offset)).atEnd offset captures⟩

section Plain

/-- The pattern does not ask where the text ends, and repeats nothing but characters. -/
def IsPlain : Pattern → Bool
  | .atEnd | .many _ => false
  | .seq first second | .either first second => first.IsPlain && second.IsPlain
  | .capture _ body => body.IsPlain
  | _ => true

/-- Every plain pattern settles what comes before it if what follows refuses the end. -/
theorem settled_of_isPlain (plain : pattern.IsPlain = true) (settled : Settled next false) :
    Settled (pattern.run · next) false := by
  induction pattern generalizing next with
  | empty => exact settled
  | one accepts => exact settled_one settled (.inr rfl)
  | atStart => exact settled_atStart settled
  | atEnd => cases plain
  | seq first second firstHypothesis secondHypothesis =>
    obtain ⟨isFirst, isSecond⟩ := (Bool.and_eq_true _ _).mp plain
    exact firstHypothesis isFirst (secondHypothesis isSecond settled)
  | either first second firstHypothesis secondHypothesis =>
    obtain ⟨isFirst, isSecond⟩ := (Bool.and_eq_true _ _).mp plain
    exact settled_either (firstHypothesis isFirst settled) (secondHypothesis isSecond settled)
  | greedy accepts => exact settled_greedy settled (.inr rfl)
  | sparing accepts => exact settled_sparing settled
  | many body => cases plain
  | capture part body bodyHypothesis => exact settled_capture settled (bodyHypothesis plain)

/-- Plain patterns in turn settle what comes before them if what follows refuses the end. -/
theorem settled_inTurn {fronts : List Pattern} {last : Pattern}
    (plain : ∀ front ∈ fronts, front.IsPlain = true) (settled : Settled (last.run · next) false) :
    Settled ((inTurn fronts last).run · next) false := by
  induction fronts with
  | nil => exact settled
  | cons first fronts inductionHypothesis =>
    obtain ⟨isFirst, areOthers⟩ := List.forall_mem_cons.1 plain
    have whole := settled_of_isPlain isFirst (inductionHypothesis areOthers)
    exact whole

end Plain

section Opening

variable {others patterns : List Pattern}

/-- The pattern settles what comes before it if what follows is settled. -/
structure Settles (pattern : Pattern) : Prop where
  settled {α : Type} {next : Continuation α} {accepting : Bool} : Settled next accepting →
    ∃ other, Settled (pattern.run · next) other

/-- The pattern begins with a character that is no blank, so that the end is refused in front of it.
-/
structure Opens (pattern : Pattern) : Prop where
  settled {α : Type} {next : Continuation α} {accepting : Bool} : Settled next accepting →
    Settled (pattern.run · next) false

theorem Opens.settles (opens : pattern.Opens) : pattern.Settles :=
  ⟨fun settled => ⟨false, opens.settled settled⟩⟩

theorem Opens.seq (opens : first.Opens) (behind : second.Settles) : (seq first second).Opens where
  settled settled := by
    obtain ⟨other, settled⟩ := behind.settled settled
    exact opens.settled settled

theorem Opens.either (opens : first.Opens) (also : second.Opens) : (either first second).Opens :=
  ⟨fun settled => settled_either (opens.settled settled) (also.settled settled)⟩

theorem Opens.capture {part : Part} (opens : pattern.Opens) : (capture part pattern).Opens :=
  ⟨fun settled => settled_capture settled opens.settled⟩

/-- What opens can be left out, and then it is as if it were not there. -/
theorem Opens.optional (opens : pattern.Opens) (settled : Settled next accepting) :
    Settled ((Pattern.optional pattern).run · next) accepting := by
  have left : Settled (empty.run · next) accepting := settled
  exact settled_either (opens.settled settled) left

theorem opens_one (refuses : RefusesBlanks accepts) : (one accepts).Opens :=
  ⟨fun settled => settled_one settled (.inl refuses)⟩

theorem opens_char {wanted : Char} (noBlank : Text.isBlank wanted = false) :
    (char wanted).Opens := by
  refine opens_one fun char blank => decide_eq_false ?_
  rintro rfl
  rw [noBlank] at blank
  cases blank

theorem settles_greedy (refuses : RefusesBlanks accepts) : (greedy accepts).Settles :=
  ⟨fun settled => ⟨_, settled_greedy settled (.inl refuses)⟩⟩

theorem settles_sparing : (sparing accepts).Settles :=
  ⟨fun settled => ⟨_, settled_sparing settled⟩⟩

theorem settles_optional (opens : pattern.Opens) : (Pattern.optional pattern).Settles :=
  ⟨fun settled => ⟨_, opens.optional settled⟩⟩

theorem settles_all (settle : ∀ pattern ∈ patterns, pattern.Settles) : (all patterns).Settles := by
  induction patterns with
  | nil => exact ⟨fun settled => ⟨_, settled⟩⟩
  | cons first others inductionHypothesis =>
    obtain ⟨isFirst, areOthers⟩ := List.forall_mem_cons.1 settle
    cases others with
    | nil => exact isFirst
    | cons second others =>
      refine ⟨fun settled => ?_⟩
      obtain ⟨other, settled⟩ := (inductionHypothesis areOthers).settled settled
      exact isFirst.settled settled

theorem opens_all_cons (opens : first.Opens) (settle : ∀ pattern ∈ others, pattern.Settles) :
    (all (first :: others)).Opens := by
  cases others with
  | nil => exact opens
  | cons second others => exact opens.seq (settles_all settle)

theorem opens_anyOf {last : Pattern} (each : ∀ pattern ∈ patterns, pattern.Opens)
    (also : last.Opens) : (anyOf last patterns).Opens := by
  induction patterns with
  | nil => exact also
  | cons first others inductionHypothesis =>
    obtain ⟨isFirst, areOthers⟩ := List.forall_mem_cons.1 each
    exact isFirst.either (inductionHypothesis areOthers)

/-- A word without blanks opens. -/
theorem opens_word {wanted : String} (nonempty : wanted.toList ≠ [])
    (unspaced : (wanted.toList.all fun letter => !Text.isBlank letter) = true) :
    (word wanted).Opens := by
  have one {letter : Char} (noBlank : Text.isBlank letter = false) :
      (Pattern.one fun char => Text.foldCase char = letter).Opens := by
    refine opens_one fun char blank => decide_eq_false ?_
    rintro rfl
    rw [Text.foldCase_of_isBlank blank, blank] at noBlank
    cases noBlank
  unfold word
  obtain ⟨letter, letters, isWord⟩ := List.exists_cons_of_ne_nil nonempty
  have noBlank (letter : Char) (isLetter : letter ∈ wanted.toList) : Text.isBlank letter = false :=
    Bool.not_eq_true' _ ▸ List.all_eq_true.1 unspaced letter isLetter
  rw [isWord] at noBlank ⊢
  refine opens_all_cons (one (noBlank letter List.mem_cons_self)) fun pattern isOne => ?_
  obtain ⟨letter, isLetter, rfl⟩ := List.mem_map.1 isOne
  exact (one (noBlank letter (List.mem_cons_of_mem _ isLetter))).settles

end Opening

end Retrace.Pattern
