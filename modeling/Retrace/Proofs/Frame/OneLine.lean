import Retrace.Proofs.Frame.Numbers

/-!
# Frames in one line

A frame that is read of a line has its method and its file from there, so neither has a line feed.
Nothing else that a frame is written with has one; only a name, a file or a comment that is brought
in from elsewhere could break the written line.
-/

namespace Retrace

open Number (NumeralFault)

/-- A text has no line feed. -/
def OneLine (text : String) : Prop :=
  '\n' ∉ text.toList

instance : DecidablePred OneLine :=
  fun text => inferInstanceAs (Decidable ('\n' ∉ text.toList))

namespace OneLine

theorem append {front back : String} (inFront : OneLine front) (behind : OneLine back) :
    OneLine (front ++ back) := by
  unfold OneLine
  rw [String.toList_append]
  exact List.not_mem_append inFront behind

/-- A part of a line has no line feed. -/
theorem part {line part : List Char} (inLine : '\n' ∉ line) (inside : part <:+: line) :
    OneLine (String.ofList part) := by
  unfold OneLine
  rw [String.toList_ofList]
  exact fun isIn => inLine (inside.mem isIn)

/-- A written number has no line feed. -/
theorem decimal (number : Int) : OneLine (String.ofList (Number.decimal number)) := by
  have inDigits : '\n' ∉ Number.digits number.natAbs := fun isIn =>
    absurd (Number.isDigit_of_mem_digits isIn) (by decide)
  unfold OneLine Number.decimal
  rw [String.toList_ofList]
  split
  · exact List.not_mem_cons_of_ne_of_not_mem (by decide) inDigits
  · exact inDigits

end OneLine

namespace Frame

/-- The method and the file of a frame have no line feed. -/
structure InOneLine (frame : Frame) : Prop where
  method : ∀ name ∈ frame.method, OneLine name
  file : OneLine frame.file

section Reading

variable {line : List Char} {frame : Frame}

/-- A frame of parts of a line has no line feed. -/
theorem inOneLine_of_within {written : WrittenFrame} (within : written.Within line)
    (inLine : '\n' ∉ line) (isFrame : written.frame = .ok frame) : frame.InOneLine := by
  unfold WrittenFrame.frame at isFrame
  cases isLine : WrittenFrame.number? written.line with
  | error fault =>
    rw [isLine] at isFrame
    cases isFrame
  | ok number =>
    cases isColumn : WrittenFrame.number? written.column with
    | error fault =>
      rw [isLine, isColumn] at isFrame
      cases isFrame
    | ok column =>
      rw [isLine, isColumn] at isFrame
      cases isFrame
      refine ⟨fun name isName => ?_, .part inLine within.file⟩
      dsimp only at isName
      split at isName
      · cases isName
      · cases isName
        exact .part inLine within.method

/-- A frame that is read of a line has no line feed. -/
theorem inOneLine_of_ofLine (inLine : '\n' ∉ line) (isRead : ofLine line = .ok (some frame)) :
    frame.InOneLine := by
  rw [ofLine, readBy] at isRead
  cases first : Grammar.all.findSome? (·.written? line) with
  | none =>
    rw [first] at isRead
    cases isRead
  | some written =>
    obtain ⟨grammar, -, matched⟩ := List.exists_of_findSome?_eq_some first
    rw [first] at isRead
    dsimp only at isRead
    cases isFrame : written.frame with
    | error fault =>
      rw [isFrame] at isRead
      cases isRead
    | ok read =>
      rw [isFrame] at isRead
      cases isRead
      exact inOneLine_of_within (Grammar.within_of_written? matched) inLine isFrame

/-- Every frame of some lines is read of one of them. -/
theorem exists_line_of_mem {lines : List (List Char)} {frames : List Frame}
    (isRead : ofLines lines = .ok frames) (isFrame : frame ∈ frames) :
    ∃ line ∈ lines, ofLine line = .ok (some frame) := by
  induction lines generalizing frames with
  | nil =>
    cases isRead
    cases isFrame
  | cons line lines inductionHypothesis =>
    rw [ofLines] at isRead
    cases first : ofLine line with
    | error fault =>
      rw [first] at isRead
      cases isRead
    | ok reading =>
      rw [first] at isRead
      cases reading with
      | none =>
        obtain ⟨other, isOther, reads⟩ := inductionHypothesis isRead isFrame
        exact ⟨other, List.mem_cons_of_mem _ isOther, reads⟩
      | some read =>
        cases others : ofLines lines with
        | error fault =>
          simp only [bind, Except.bind, others] at isRead
          cases isRead
        | ok rest =>
          simp only [bind, Except.bind, others] at isRead
          cases isRead
          rcases List.mem_cons.1 isFrame with rfl | isFrame
          · exact ⟨line, List.mem_cons_self, first⟩
          · obtain ⟨other, isOther, reads⟩ := inductionHypothesis others isFrame
            exact ⟨other, List.mem_cons_of_mem _ isOther, reads⟩

/-- No frame of a stack has a line feed, whatever ends the lines of the stack. -/
theorem inOneLine_of_ofStack {stack : String} {frames : List Frame}
    (isRead : ofStack stack = .ok frames) : ∀ frame ∈ frames, frame.InOneLine := by
  intro frame isFrame
  obtain ⟨line, isLine, reads⟩ := exists_line_of_mem isRead isFrame
  exact inOneLine_of_ofLine (Text.not_mem_of_mem_lines isLine) reads

end Reading

section Writing

variable {method : Option String} {file : String}

theorem oneLine_named {otherwise : String} (isMethod : ∀ name ∈ method, OneLine name)
    (isOther : OneLine otherwise) : OneLine (named method otherwise) := by
  unfold named
  cases method with
  | none => exact isOther
  | some name =>
    dsimp only
    split
    · exact isOther
    · exact isMethod name rfl

/-- A number is written in one line, or it is too large. -/
theorem numberText_cases (number : Option Int) :
    (∃ text, numberText number = .ok text ∧ OneLine text) ∨
      numberText number = .error .tooLarge := by
  cases number with
  | none => exact .inl ⟨"", rfl, by decide⟩
  | some number =>
    unfold numberText Number.writeInteger
    dsimp only
    split
    · exact .inl ⟨_, rfl, .decimal number⟩
    · exact .inr rfl

/-- A place is written in one line if its file has no line feed, or one of its numbers is too
large. -/
theorem locationText_cases (isFile : OneLine file) (line column : Option Int) :
    (∃ text, locationText file line column = .ok text ∧ OneLine text) ∨
      locationText file line column = .error .tooLarge := by
  unfold locationText
  split
  · rcases numberText_cases line with ⟨lineText, isLine, oneLine⟩ | failed
    · rcases numberText_cases column with ⟨columnText, isColumn, oneColumn⟩ | failed
      · rw [isLine, isColumn]
        have colon : OneLine ":" := by decide
        exact .inl ⟨_, rfl, (((((OneLine.append (by decide) isFile).append colon).append
          oneLine).append colon).append oneColumn).append (by decide)⟩
      · rw [isLine, failed]
        exact .inr rfl
    · rw [failed]
      exact .inr rfl
  · exact .inl ⟨"", rfl, by decide⟩

theorem oneLine_commentText {comment : Option String}
    (isComment : ∀ text ∈ comment, OneLine text) : OneLine (commentText comment) := by
  unfold commentText
  cases comment with
  | none => decide
  | some comment =>
    dsimp only
    split
    · decide
    · exact OneLine.append (by decide) (isComment comment rfl)

/-- A frame is written in one line if its parts and its comment have no line feed, or one of its
numbers is too large. -/
theorem lineText_cases (isMethod : ∀ name ∈ method, OneLine name) (isFile : OneLine file)
    (line column : Option Int) {comment : Option String}
    (isComment : ∀ text ∈ comment, OneLine text) :
    (∃ text, lineText method file line column comment = .ok text ∧ OneLine text) ∨
      lineText method file line column comment = .error .tooLarge := by
  unfold lineText
  rcases locationText_cases isFile line column with ⟨location, isLocation, oneLine⟩ | failed
  · rw [isLocation]
    exact .inl ⟨_, rfl, (((OneLine.append (by decide) (by decide)).append
      (oneLine_named isMethod (by decide))).append oneLine).append
      (oneLine_commentText isComment)⟩
  · rw [failed]
    exact .inr rfl

theorem oneLine_bareLineText (isMethod : ∀ name ∈ method, OneLine name) :
    OneLine (bareLineText method) :=
  (OneLine.append (by decide) (by decide)).append (oneLine_named isMethod (by decide))

end Writing

end Frame

end Retrace
