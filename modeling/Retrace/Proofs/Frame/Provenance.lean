import Retrace.Conversion.Frames
import Retrace.Proofs.Frame.Layout
import Retrace.Proofs.Frame.OneLine

/-!
# Where the parts of a frame come from

The origin of evaluated code is searched in the file of its frame, so its parts stand in the line as
those of other frames do; in the third form the words of an evaluation introduce its line. A frame
therefore has no text and no number that the line does not have at that place. In particular it has
a column only behind a line, and neither number is negative.
-/

namespace Retrace

namespace Grammar

open Pattern

variable {offset : Nat} {text rest : List Char} {captures : Captures} {after : Cursor}

/-- What the first form captures of the origin of evaluated code. -/
theorem captured_of_chromeOrigin
    (found : after ∈ chromeOriginPattern.outcomes ⟨offset, text, Captures.none⟩) :
    ∃ file line column rest, text = '(' :: (file ++ placeUpTo (')' :: rest) line column) ∧
      IsNumber line ∧ IsNumber column ∧
      after.captures = captureFile Captures.none (offset + 1) file line column := by
  obtain ⟨_, opened, found⟩ := List.mem_flatMap.1 found
  obtain ⟨_, rest, rfl, spells, rfl⟩ := mem_outcomes_of_isSilent (fun _ => rfl) opened
  obtain rfl := spells_char.1 spells
  obtain ⟨_, captured, found⟩ := List.mem_flatMap.1 found
  obtain ⟨_, isFile, rfl⟩ := List.mem_map.1 captured
  obtain ⟨file, rest, rfl, -, rfl⟩ := mem_outcomes_of_isSilent (fun _ => rfl) isFile
  obtain ⟨_, numbered, found⟩ := List.mem_flatMap.1 found
  obtain ⟨line, rest, rfl, isLine, rfl⟩ := mem_outcomes_numberPart numbered
  obtain ⟨_, numbered, found⟩ := List.mem_flatMap.1 found
  obtain ⟨column, rest, rfl, isColumn, rfl⟩ := mem_outcomes_numberPart numbered
  obtain ⟨_, rest, rfl, spells, rfl⟩ := mem_outcomes_of_isSilent (fun _ => rfl) found
  obtain rfl := spells_char.1 spells
  refine ⟨file, line, column, rest, rfl, isLine, isColumn, ?_⟩
  have passed : offset + 1 + file.length + 1 + line.length + 1 =
      offset + 1 + file.length + line.length + 2 := by omega
  simp only [captureFile, List.length_singleton, passed]

/-- A search for the origin of evaluated code in the first form finds parts that stand in the file,
and no number of them ends with the file. -/
theorem exists_of_chromeOrigin {file : List Char}
    (matched : chromeOriginPattern.search? file = some captures) :
    ∃ before behind, file = before ++ ((WrittenFrame.ofCaptures file captures).file ++ behind) ∧
      ∀ more, Tells IsColon (behind ++ more) (WrittenFrame.ofCaptures file captures).line
        (WrittenFrame.ofCaptures file captures).column := by
  obtain ⟨front, rest, after, cut, isAfter, rfl⟩ := exists_of_searchFrom? matched
  obtain ⟨origin, line, column, rest, rfl, isLine, isColumn, captured⟩ :=
    captured_of_chromeOrigin isAfter
  have fileCut : file = (front ++ ['(']) ++ (origin ++ placeUpTo (')' :: rest) line column) := by
    rw [cut]
    simp
  have parts : WrittenFrame.ofCaptures file
      (captureFile Captures.none (0 + front.length + 1) origin line column) =
      ⟨[], origin, some line, some column⟩ :=
    ofCaptures_captureFile fileCut (by simp)
  rw [captured, parts]
  refine ⟨front ++ ['('], _, fileCut, fun more => ?_⟩
  have introduced : placeUpTo (')' :: rest) line column ++ more =
      [':'] ++ (line ++ ':' :: (column ++ ')' :: (rest ++ more))) := by
    simp [placeUpTo]
  exact .column introduced rfl isLine isColumn
    (stops_cons (Text.isDigit_eq_false_of_mem (by decide)))

/-- Repeated evaluations begin as the last one ends. -/
theorem prefix_of_spells_evaluations {nested last : List Char}
    (spells : (many (Pattern.all [word " > eval line ", digits])).Spells offset nested rest)
    (ends : last.map Text.foldCase = " > eval".toList) :
    " > eval".toList <+: (nested ++ last).map Text.foldCase := by
  generalize repetition : many (Pattern.all [word " > eval line ", digits]) = pattern at spells
  cases spells with
  | stop =>
    rw [List.nil_append, ends]
  | again once others =>
    cases repetition
    obtain ⟨front, back, rfl, opens, -⟩ := spells_all_cons.1 once
    have folded := spells_word.1 opens
    rw [List.append_assoc, List.append_assoc, List.map_append, folded]
    exact List.IsPrefix.trans (by decide) (List.prefix_append _ _)
  | _ => cases repetition

/-- What the third form captures of the origin of evaluated code. -/
theorem captured_of_geckoOrigin
    (found : after ∈ geckoOriginPattern.outcomes ⟨offset, text, Captures.none⟩) :
    ∃ file mark line rest, text = file ++ (mark ++ (line ++ rest)) ∧
      mark.map Text.foldCase = " line ".toList ∧ " > eval".toList <+: rest.map Text.foldCase ∧
      IsNumber line ∧ after.captures = captureMarked Captures.none offset file mark line := by
  obtain ⟨_, captured, found⟩ := List.mem_flatMap.1 found
  obtain ⟨_, isFile, rfl⟩ := List.mem_map.1 captured
  obtain ⟨file, rest, rfl, -, rfl⟩ := mem_outcomes_of_isSilent (fun _ => rfl) isFile
  obtain ⟨_, marked, found⟩ := List.mem_flatMap.1 found
  obtain ⟨mark, rest, rfl, isMark, rfl⟩ :=
    mem_outcomes_of_isSilent (fun _ => setsPart_word _ _) marked
  obtain ⟨_, captured, found⟩ := List.mem_flatMap.1 found
  obtain ⟨_, numbered, rfl⟩ := List.mem_map.1 captured
  obtain ⟨line, rest, rfl, isLine, rfl⟩ := mem_outcomes_of_isSilent (fun _ => rfl) numbered
  obtain ⟨nonempty, areDigits⟩ := spells_greedyOne.1 isLine
  obtain ⟨_, repeated, found⟩ := List.mem_flatMap.1 found
  obtain ⟨nested, rest, rfl, evaluations, rfl⟩ := mem_outcomes_of_isSilent
    (by intro part; simp [setsPart, Pattern.digits, greedyOne]) repeated
  obtain ⟨last, rest, rfl, evaluation, rfl⟩ :=
    mem_outcomes_of_isSilent (fun _ => setsPart_word _ _) found
  refine ⟨file, mark, line, nested ++ (last ++ rest), rfl, spells_word.1 isMark, ?_,
    ⟨nonempty, areDigits⟩, rfl⟩
  rw [← List.append_assoc, List.map_append]
  exact (prefix_of_spells_evaluations evaluations (spells_word.1 evaluation)).trans
    (List.prefix_append _ _)

/-- The words of an evaluation introduce a line, without regard to case. -/
def IsEvaluation (mark rest : List Char) : Prop :=
  mark.map Text.foldCase = " line ".toList ∧ " > eval".toList <+: rest.map Text.foldCase

/-- No digit stands in front of an evaluation. -/
theorem stops_of_isEvaluation {mark : List Char} (isEvaluation : IsEvaluation mark rest) :
    Stops rest := by
  obtain ⟨more, folded⟩ := isEvaluation.2
  cases rest with
  | nil => cases folded
  | cons first rest =>
    have isSpace : Text.foldCase first = ' ' := (List.cons_eq_cons.1 folded).1.symm
    obtain rfl := Text.eq_of_foldCase isSpace (by decide)
    exact stops_cons (Text.isDigit_eq_false_of_mem (by decide))

/-- A search for the origin of evaluated code in the third form finds a file and a line that the
words of an evaluation introduce. -/
theorem ofCaptures_of_geckoOrigin {file : List Char}
    (matched : geckoOriginPattern.search? file = some captures) :
    ∃ front origin mark line rest, file = front ++ (origin ++ (mark ++ (line ++ rest))) ∧
      IsEvaluation mark rest ∧ IsNumber line ∧
      WrittenFrame.ofCaptures file captures = ⟨[], origin, some line, none⟩ := by
  obtain ⟨front, rest, after, cut, isAfter, rfl⟩ := exists_of_searchFrom? matched
  obtain ⟨origin, mark, line, rest, rfl, isMark, evaluates, isLine, captured⟩ :=
    captured_of_geckoOrigin isAfter
  have parts : WrittenFrame.ofCaptures file
      (captureMarked Captures.none (0 + front.length) origin mark line) =
      ⟨[], origin, some line, none⟩ :=
    ofCaptures_captureMarked cut (Nat.zero_add _) rfl
  rw [captured, parts]
  exact ⟨front, origin, mark, line, rest, cut, ⟨isMark, evaluates⟩, isLine, rfl⟩

/-- The parts that it finds stand in the file, and the line does not end with the file. -/
theorem exists_of_geckoOrigin {file : List Char}
    (matched : geckoOriginPattern.search? file = some captures) :
    ∃ before behind, file = before ++ ((WrittenFrame.ofCaptures file captures).file ++ behind) ∧
      ∀ more, Tells IsEvaluation (behind ++ more) (WrittenFrame.ofCaptures file captures).line
        (WrittenFrame.ofCaptures file captures).column := by
  obtain ⟨front, origin, mark, line, rest, cut, evaluation, isLine, parts⟩ :=
    ofCaptures_of_geckoOrigin matched
  rw [parts]
  refine ⟨front, _, cut, fun more => ?_⟩
  have introduced : mark ++ (line ++ rest) ++ more = mark ++ (line ++ (rest ++ more)) := by simp
  have isEvaluation : IsEvaluation mark (rest ++ more) := by
    refine ⟨evaluation.1, ?_⟩
    rw [List.map_append]
    exact evaluation.2.trans (List.prefix_append _ _)
  exact .line introduced isEvaluation isLine (stops_of_isEvaluation isEvaluation)

/-- What introduces a line in a form: a colon, or in the third form the words of an evaluation. -/
def Introduces (grammar : Grammar) (mark rest : List Char) : Prop :=
  IsColon mark rest ∨ grammar = .gecko ∧ IsEvaluation mark rest

/-- The parts of a frame that are found in the file of another one stand in the line as well. -/
theorem exists_of_origin {introduces other : List Char → List Char → Prop} {line : List Char}
    {frame origin : WrittenFrame}
    (whole : ∃ before behind, line = before ++ (frame.file ++ behind) ∧
      StandsBetween introduces before behind frame)
    (inFile : ∃ before behind, frame.file = before ++ (origin.file ++ behind) ∧
      ∀ more, Tells other (behind ++ more) origin.line origin.column) :
    ∃ before behind, line = before ++ (origin.file ++ behind) ∧
      StandsBetween other before behind { origin with method := frame.method } := by
  obtain ⟨before, behind, cut, stands⟩ := whole
  obtain ⟨front, back, fileCut, tells⟩ := inFile
  refine ⟨before ++ front, back ++ behind, ?_, ?_, tells behind⟩
  · rw [cut, fileCut]
    simp
  · exact stands.method.trans (List.prefix_append _ _).isInfix

theorem StandsBetween.mono {one other : List Char → List Char → Prop} {before behind : List Char}
    {written : WrittenFrame} (stands : StandsBetween one before behind written)
    (wider : ∀ mark rest, one mark rest → other mark rest) :
    StandsBetween other before behind written :=
  ⟨stands.method, stands.place.mono wider⟩

/-- The parts of a line in some form stand there. -/
theorem exists_of_written? {grammar : Grammar} {line : List Char} {written : WrittenFrame}
    (matched : grammar.written? line = some written) :
    ∃ before behind, line = before ++ (written.file ++ behind) ∧
      StandsBetween grammar.Introduces before behind written := by
  obtain ⟨captures, found, rfl⟩ := Option.map_eq_some_iff.1 matched
  have whole := exists_of_captured (laidOut_pattern grammar) found
  have widen {introduces : List Char → List Char → Prop} {written : WrittenFrame}
      (wider : ∀ mark rest, introduces mark rest → grammar.Introduces mark rest)
      (found : ∃ before behind, line = before ++ (written.file ++ behind) ∧
        StandsBetween introduces before behind written) :
      ∃ before behind, line = before ++ (written.file ++ behind) ∧
        StandsBetween grammar.Introduces before behind written := by
    obtain ⟨before, behind, cut, stands⟩ := found
    exact ⟨before, behind, cut, stands.mono wider⟩
  have byColon : ∀ mark rest, IsColon mark rest → grammar.Introduces mark rest :=
    fun _ _ => .inl
  generalize WrittenFrame.ofCaptures line captures = frame at whole
  cases grammar with
  | chrome =>
    rw [resolveEval, WrittenFrame.outOfEval]
    split
    · split
      next captures found =>
        exact widen byColon (exists_of_origin whole (exists_of_chromeOrigin found))
      next => exact widen byColon whole
    · exact widen byColon whole
  | winjs => exact widen byColon whole
  | gecko =>
    rw [resolveEval, WrittenFrame.outOfNestedEval]
    split
    · split
      next captures found =>
        exact widen (fun _ _ isEvaluation => .inr ⟨rfl, isEvaluation⟩)
          (exists_of_origin whole (exists_of_geckoOrigin found))
      next => exact widen byColon whole
    · exact widen byColon whole
  | node => exact widen byColon whole
  | jsc => exact widen byColon whole

end Grammar

namespace WrittenFrame

/-- A number that is read is the value of its digits. -/
theorem number?_eq_ok {digits : Option (List Char)} {number : Option Int}
    (isRead : number? digits = .ok number) :
    number = digits.map fun digits => (Number.digitsValue digits : Int) := by
  cases digits with
  | none =>
    cases isRead
    rfl
  | some digits =>
    rw [number?, Number.readDigits] at isRead
    split at isRead
    · cases isRead
      rfl
    · cases isRead

/-- A frame of written parts has their values. -/
theorem frame_eq_ok {written : WrittenFrame} {frame : Frame} (isFrame : written.frame = .ok frame) :
    frame.file = String.ofList written.file ∧
      frame.method =
        (if written.method.isEmpty then none else some (String.ofList written.method)) ∧
      frame.line = (written.line.map fun digits => (Number.digitsValue digits : Int)) ∧
      frame.column = (written.column.map fun digits => (Number.digitsValue digits : Int)) := by
  unfold WrittenFrame.frame at isFrame
  cases isLine : number? written.line with
  | error fault =>
    rw [isLine] at isFrame
    cases isFrame
  | ok line =>
    cases isColumn : number? written.column with
    | error fault =>
      rw [isLine, isColumn] at isFrame
      cases isFrame
    | ok column =>
      rw [isLine, isColumn] at isFrame
      cases isFrame
      exact ⟨rfl, rfl, number?_eq_ok isLine, number?_eq_ok isColumn⟩

end WrittenFrame

namespace Frame

open Grammar (IsNumber Stops)

/-- A frame between what stands in front of its file in a line and what stands behind it. The line
is introduced by something. -/
structure StandsIn (introduces : List Char → List Char → Prop) (line before behind : List Char)
    (frame : Frame) : Prop where
  file : line = before ++ (frame.file.toList ++ behind)
  /-- A method is not empty and stands in front of the file. -/
  method : ∀ name ∈ frame.method, name ≠ "" ∧ name.toList <:+: before
  /-- A line is all the digits directly behind the file, and a column all the digits behind that. -/
  number : ∀ number ∈ frame.line, ∃ mark digits rest, behind = mark ++ (digits ++ rest) ∧
    introduces mark rest ∧ IsNumber digits ∧ Stops rest ∧ number = Number.digitsValue digits ∧
    ∀ column ∈ frame.column, ∃ digits more, rest = ':' :: (digits ++ more) ∧ IsNumber digits ∧
      Stops more ∧ column = Number.digitsValue digits
  column : frame.column.isSome = true → frame.line.isSome = true

/-- A frame of written parts stands where they do. -/
theorem standsIn_of_written {introduces : List Char → List Char → Prop}
    {line before behind : List Char} {written : WrittenFrame} {frame : Frame}
    (cut : line = before ++ (written.file ++ behind))
    (stands : Grammar.StandsBetween introduces before behind written)
    (isFrame : written.frame = .ok frame) : frame.StandsIn introduces line before behind := by
  obtain ⟨isFile, isMethod, isLine, isColumn⟩ := WrittenFrame.frame_eq_ok isFrame
  obtain ⟨inFront, place⟩ := stands
  generalize written.line = lineDigits, written.column = columnDigits at place isLine isColumn
  refine ⟨?_, ?_, ?_, ?_⟩
  · rw [isFile, String.toList_ofList]
    exact cut
  · intro name isName
    rw [isMethod] at isName
    split at isName
    · cases isName
    next nonempty =>
      obtain rfl := Option.some.inj isName
      rw [String.toList_ofList]
      refine ⟨fun isEmpty => nonempty ?_, inFront⟩
      have noChars := congrArg String.toList isEmpty
      rw [String.toList_ofList] at noChars
      rw [noChars]
      rfl
  · intro number isNumber
    rw [isLine] at isNumber
    rw [isColumn]
    cases place with
    | nothing => cases isNumber
    | line cut introduced lineDigits stops =>
      obtain rfl := Option.some.inj isNumber
      exact ⟨_, _, _, cut, introduced, lineDigits, stops, rfl, nofun⟩
    | column cut introduced lineDigits columnDigits stops =>
      obtain rfl := Option.some.inj isNumber
      refine ⟨_, _, _, cut, introduced, lineDigits,
        Grammar.stops_cons (Text.isDigit_eq_false_of_mem (by decide)), rfl, ?_⟩
      rintro column ⟨⟩
      exact ⟨_, _, rfl, columnDigits, stops, rfl⟩
  · rw [isLine, isColumn, Option.isSome_map, Option.isSome_map]
    cases place with
    | nothing => exact id
    | line => exact fun _ => rfl
    | column => exact fun _ => rfl

/-- Looks a frame up in the source map of a path at a line that there can be. -/
def lookUpAt {m : Type → Type} [Monad m] {ρ : Type} (files : FileSystem m) (decoder : Decoder m ρ)
    (frame : Frame) (path : String) (progress : Progress ρ) (line : Int) :
    m (Except Fault String × Progress ρ) := do
  let (loaded, cache) ← progress.cache.fetch files decoder path
  let progress := { progress with cache := cache }
  match loaded with
  | .error (.load cause) => return (frame.withoutMap cause.message, progress.fail frame.file)
  | .error fault => return (.error fault, progress)
  | .ok map =>
    match ← decoder.locate map line frame.column with
    | .error fault => return (.error fault, progress)
    | .ok place => return (frame.relocated place, progress)

/-- The numbers of a frame are such that it has a place exactly if it has a line, and that all its
lines can be looked up but zero. -/
structure IsPlaced (frame : Frame) : Prop where
  line : ∀ line ∈ frame.line, 0 ≤ line
  column : ∀ column ∈ frame.column, 0 ≤ column
  located : frame.hasLocation = frame.line.isSome
  lookUp {m : Type → Type} [Monad m] {ρ : Type} (files : FileSystem m) (decoder : Decoder m ρ)
    (path : String) (progress : Progress ρ) : frame.hasLocation = true →
    ∃ line ∈ frame.line, frame.lookUp files decoder path progress =
      if line = 0 then return (.ok (bareLineText frame.method), progress)
      else frame.lookUpAt files decoder path progress line

/-- A frame that stands in a line is placed. -/
theorem StandsIn.isPlaced {introduces : List Char → List Char → Prop}
    {line before behind : List Char} {frame : Frame}
    (stands : frame.StandsIn introduces line before behind) : frame.IsPlaced := by
  have notNegative : ∀ line ∈ frame.line, 0 ≤ line := by
    intro number isNumber
    obtain ⟨_, _, _, -, -, -, -, rfl, -⟩ := stands.number number isNumber
    exact Int.natCast_nonneg _
  have located : frame.hasLocation = frame.line.isSome := by
    unfold hasLocation
    cases hasColumn : frame.column.isSome with
    | false => rw [Bool.or_false]
    | true => rw [stands.column hasColumn, Bool.true_or]
  refine ⟨notNegative, ?_, located, ?_⟩
  · intro column isColumn
    obtain ⟨number, isNumber⟩ := Option.isSome_iff_exists.1
      (stands.column (Option.isSome_of_mem isColumn))
    obtain ⟨_, _, _, -, -, -, -, -, columns⟩ := stands.number number isNumber
    obtain ⟨_, _, -, -, -, rfl⟩ := columns column isColumn
    exact Int.natCast_nonneg _
  · intro m _ ρ files decoder path progress isLocated
    obtain ⟨number, isNumber⟩ := Option.isSome_iff_exists.1 (located.symm.trans isLocated)
    refine ⟨number, isNumber, ?_⟩
    have notBelow := notNegative number isNumber
    unfold lookUp lookUpBy
    rw [isNumber]
    by_cases isZero : number = 0
    · rw [if_pos isZero]
      exact if_pos (by omega)
    · rw [if_neg isZero]
      exact if_neg (by omega)

/-- A frame that a form reads stands in the line. -/
theorem exists_of_readFrame {grammar : Grammar} {line : List Char} {frame : Frame}
    (isRead : grammar.readFrame line = .ok (some frame)) :
    ∃ before behind, frame.StandsIn grammar.Introduces line before behind := by
  unfold Grammar.readFrame at isRead
  split at isRead
  · cases isRead
  next written matched =>
    obtain ⟨before, behind, cut, stands⟩ := Grammar.exists_of_written? matched
    cases isFrame : written.frame with
    | error fault =>
      rw [isFrame] at isRead
      cases isRead
    | ok other =>
      rw [isFrame] at isRead
      cases isRead
      exact ⟨before, behind, standsIn_of_written cut stands isFrame⟩

/-- A frame that is read of a line is read by one of the forms. -/
theorem exists_readFrame_of_ofLine {line : List Char} {frame : Frame}
    (isRead : ofLine line = .ok (some frame)) :
    ∃ grammar : Grammar, grammar.readFrame line = .ok (some frame) := by
  rw [ofLine, readBy] at isRead
  split at isRead
  · cases isRead
  next written first =>
    obtain ⟨grammar, -, matched⟩ := List.exists_of_findSome?_eq_some first
    refine ⟨grammar, ?_⟩
    rw [Grammar.readFrame, matched]
    exact isRead

/-- Whatever form reads a line, its frame has no text and no number that does not stand there. A
frame of a stack therefore has a place exactly if it has a line, and only the line zero is not
looked up. -/
theorem readFrame_invents_nothing :
    (∀ (grammar : Grammar) (line : List Char) (frame : Frame),
      grammar.readFrame line = .ok (some frame) →
      ∃ before behind, frame.StandsIn grammar.Introduces line before behind) ∧
    ∀ (stack : String) (frames : List Frame), ofStack stack = .ok frames →
      ∀ frame ∈ frames, frame.IsPlaced := by
  refine ⟨fun grammar line frame isRead => exists_of_readFrame isRead, ?_⟩
  intro stack frames isRead frame isFrame
  obtain ⟨line, -, isRead⟩ := exists_line_of_mem isRead isFrame
  obtain ⟨grammar, isRead⟩ := exists_readFrame_of_ofLine isRead
  obtain ⟨before, behind, stands⟩ := exists_of_readFrame isRead
  exact stands.isPlaced

/-- The origin of evaluated code stands in its line and is placed. -/
theorem readFrame_invents_nothing_of_evaluation :
    (∃ before behind, (Frame.mk (some "f") "http://x/a.js" (some 3) none).StandsIn
      (Grammar.Introduces .gecko) "f@http://x/a.js LINE 3 > eval:1:2".toList before behind) ∧
    (Frame.mk (some "f") "http://x/a.js" (some 3) none).IsPlaced :=
  ⟨readFrame_invents_nothing.1 .gecko _ _ (by rfl),
    readFrame_invents_nothing.2 "f@http://x/a.js LINE 3 > eval:1:2" [_] (by rfl) _
      (List.mem_singleton_self _)⟩

/-- The words of an evaluation introduce a line also where they are not written in small letters. -/
theorem introduces_in_capitals :
    ¬ ∀ (grammar : Grammar) (line : List Char) (frame : Frame),
      grammar.readFrame line = .ok (some frame) →
      ∃ before behind, frame.StandsIn
        (fun mark _ => mark = [':'] ∨ grammar = .gecko ∧ mark = " line ".toList)
        line before behind := by
  intro always
  have isRead : Grammar.gecko.readFrame "f@http://x/a.js LINE 3 > eval:1:2".toList =
      .ok (some ⟨some "f", "http://x/a.js", some 3, none⟩) := by rfl
  obtain ⟨before, behind, stands⟩ := always _ _ _ isRead
  obtain ⟨mark, digits, rest, rfl, introduced, -⟩ := stands.number 3 rfl
  have inLine : "http://x/a.js".toList ++ mark <:+: "f@http://x/a.js LINE 3 > eval:1:2".toList := by
    rw [stands.file]
    exact ⟨before, digits ++ rest, by simp⟩
  rcases introduced with rfl | ⟨-, rfl⟩
  · exact absurd inLine (by decide)
  · exact absurd inLine (by decide)

end Frame

end Retrace
