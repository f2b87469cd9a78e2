import Retrace.Proofs.Conversion.Isolation
import Retrace.Proofs.Frame.Numbers
import Retrace.Proofs.Frame.RoundTrip

/-!
# Converting what was read

A stack is read as a whole before its first frame is converted. All lines of a stack are read, and
all frames that they give are converted, but for one kind of text: digits without end. A number of
more digits than the limit is a fault of the whole stack, whichever line has it.
-/

namespace Retrace

open Number (NumeralFault)

variable {σ ρ : Type}

/-- What converting a stack answers to what was read of it, behind the header that it has: each
frame gives one line. -/
inductive Answers (header : Option String) :
    Except NumeralFault (List Frame) → Except Fault Conversion → Prop
  | fault (fault : NumeralFault) : Answers header (.error fault) (.error (.numeral fault))
  | noFrames : Answers header (.ok []) (.ok .noFrames)
  | converted {frames : List Frame} {lines : List String} (some : frames ≠ [])
      (gives : List.Forall₂ Frame.Gives frames lines) :
      Answers header (.ok frames) (.ok (.converted (joinLines (header.toList ++ lines))))

/-- Where no frame was read, the answer says so. -/
theorem Answers.eq_noFrames {header : Option String} {answer : Except Fault Conversion}
    (answers : Answers header (.ok []) answer) : answer = .ok .noFrames := by
  cases answers with
  | noFrames => rfl
  | converted some gives => exact absurd rfl some

namespace Frame

/-- Frames that lines are read as can be written again. -/
theorem writable_of_reads {lines : List (List Char)} {readings : List (Option Frame)}
    (reads : List.Forall₂ Reads lines readings) :
    ∀ frame ∈ readings.filterMap id, frame.Writable := by
  induction reads with
  | nil => simp
  | @cons line reading lines readings first _ inductionHypothesis =>
    cases reading with
    | none => exact inductionHypothesis
    | some frame => exact List.forall_mem_cons.2 ⟨first.writable frame rfl, inductionHypothesis⟩

/-- Every frame that is read of a stack can be written again. -/
theorem writable_of_ofStack {stack : String} {frames : List Frame}
    (isRead : ofStack stack = .ok frames) : ∀ frame ∈ frames, frame.Writable := by
  rw [ofStack] at isRead
  rcases ofLines_cases (Text.lines stack.toList) with
    ⟨readings, reads, same⟩ | ⟨line, -, fault, isFault, -⟩
  · rw [isRead] at same
    cases same
    exact writable_of_reads reads
  · rw [isRead] at isFault
    cases isFault

end Frame

/-- Whatever the files and the decoder answer, converting a stack answers to what was read of it. -/
theorem convertStack_answers (files : FileSystem (StateM σ)) (decoder : Decoder (StateM σ) ρ)
    (config : Config) {stack : String} (written : stack ≠ "") :
    Always (convertStack files decoder .grammars config stack)
      (Answers (header? stack) (Frame.ofStack stack)) := by
  have nonempty : ¬ stack.isEmpty = true := fun isEmpty => written (String.isEmpty_iff.1 isEmpty)
  unfold convertStack convertStackBy
  rw [if_neg nonempty, StackReader.grammars]
  cases isRead : Frame.ofStack stack with
  | error fault => exact .pure (.fault fault)
  | ok frames =>
    have writable := Frame.writable_of_ofStack isRead
    cases frames with
    | nil => exact .pure .noFrames
    | cons frame frames =>
      refine .bind (Frame.convertAll_gives files decoder config.mapPaths writable .start) ?_
      rintro _ ⟨lines, rfl, gives⟩
      exact .pure (.converted (List.cons_ne_nil _ _) gives)

/-- A stack is read line by line and every frame of it converted, whatever the files and the decoder
answer, unless the stack has a run of more digits than can be read; the fault then tells how many. -/
theorem convertStack_reads_or_overlong (files : FileSystem (StateM σ))
    (decoder : Decoder (StateM σ) ρ) (config : Config) (stack : String) (state : σ) :
    (∃ readings,
      List.Forall₂ (fun line reading => Frame.ofLine line = .ok reading) (Text.lines stack.toList)
        readings ∧
      Frame.ofStack stack = .ok (readings.filterMap id) ∧
      (stack ≠ "" → Answers (header? stack) (.ok (readings.filterMap id))
        ((convertStack files decoder .grammars config stack).run state).1)) ∨
    ∃ digits, IsRun stack.toList digits ∧ Number.digitLimit < digits.length ∧
      Frame.ofStack stack = .error (.tooManyDigits digits.length) ∧
      ((convertStack files decoder .grammars config stack).run state).1 =
        .error (.numeral (.tooManyDigits digits.length)) := by
  rcases Frame.ofLines_cases (Text.lines stack.toList) with
    ⟨readings, reads, isRead⟩ | ⟨line, isLine, fault, isFault, overlong⟩
  · have readStack : Frame.ofStack stack = .ok (readings.filterMap id) := isRead
    refine .inl ⟨readings, reads.imp fun _ _ first => first.ofLine, readStack, fun written => ?_⟩
    rw [← readStack]
    exact convertStack_answers files decoder config written state
  · obtain ⟨digits, isRun, long, rfl⟩ := overlong.widen ((Text.areLines _).inside line isLine)
    have readStack : Frame.ofStack stack = .error (.tooManyDigits digits.length) := isFault
    have written : stack ≠ "" := by
      rintro rfl
      cases isLine
    have answers := convertStack_answers files decoder config written state
    rw [readStack] at answers
    generalize ((convertStack files decoder .grammars config stack).run state).1 = answer at answers
    cases answers
    exact .inr ⟨digits, isRun, long, readStack, rfl⟩

/-- A written call site is a single line if its parts are. -/
theorem unbroken_callText {method file line column : List Char} (isMethod : Text.Unbroken method)
    (isFile : Text.Unbroken file) (isLine : Text.Unbroken line) (isColumn : Text.Unbroken column) :
    Text.Unbroken (Grammar.callText method file line column) := by
  unfold Grammar.callText Grammar.placeText Text.Unbroken
  simp only [List.forall_mem_append, List.forall_mem_cons]
  exact ⟨Text.forall_mem_of_all (by decide), isMethod, by decide, by decide, isFile, by decide,
    isLine, by decide, isColumn, by decide, by simp⟩

/-- A call site whose line has one digit too many. -/
def endlessCall : List Char :=
  Grammar.callText ['f'] "a.js".toList (List.replicate 4301 '1') ['2']

/-- A call site behind the one with too many digits. -/
def calmCall : List Char :=
  Grammar.callText ['g'] "b.js".toList ['3'] ['4']

/-- One line with too many digits has the whole stack refused, also the frame behind it. -/
theorem ofStack_endlessCall :
    Frame.ofStack (String.ofList (endlessCall ++ '\n' :: calmCall)) =
      .error (.tooManyDigits 4301) ∧
    Frame.ofLine calmCall = .ok (some ⟨some "g", "b.js", some 3, some 4⟩) := by
  have isNumber {char : Char} (count : Nat) (some : count ≠ 0) (isDigit : Text.isDigit char = true) :
      Grammar.IsNumber (List.replicate count char) := by
    refine ⟨by simpa using some, fun other isIn => ?_⟩
    rw [List.eq_of_mem_replicate isIn]
    exact isDigit
  have isEndless : Grammar.IsCall ['f'] "a.js".toList (List.replicate 4301 '1') ['2'] :=
    ⟨by decide, by decide, isNumber 4301 (by decide) (by decide),
      isNumber 1 (by decide) (by decide)⟩
  have isCalm : Grammar.IsCall ['g'] "b.js".toList ['3'] ['4'] :=
    ⟨by decide, by decide, isNumber 1 (by decide) (by decide),
      isNumber 1 (by decide) (by decide)⟩
  have unbroken : Text.Unbroken endlessCall := by
    refine unbroken_callText (Text.forall_mem_of_all (by decide))
      (Text.forall_mem_of_all (by decide)) (fun char isIn => ?_) (Text.forall_mem_of_all (by decide))
    rw [List.eq_of_mem_replicate isIn]
    decide
  constructor
  · rw [Frame.ofStack, String.toList_ofList, Text.lines_append unbroken, Frame.ofLines, Frame.ofLine,
      Frame.readBy, endlessCall, Grammar.written_callText isEndless]
    have refused : WrittenFrame.number? (some (List.replicate 4301 '1')) =
        .error (.tooManyDigits 4301) := by
      rw [WrittenFrame.number?, Number.readDigits, List.length_replicate, if_neg (by decide)]
      rfl
    simp only [WrittenFrame.frame, refused]
    rfl
  · rw [Frame.ofLine, Frame.readBy, calmCall, Grammar.written_callText isCalm]
    rfl

end Retrace
