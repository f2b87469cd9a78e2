import Retrace.Proofs.Conversion.Headers
import Retrace.Proofs.Frame.OneLine
import Retrace.Proofs.Text.Pieces

/-!
# The lines of a converted stack

A converted stack is one text. As long as nobody outside brings in a line feed, cutting that text at
its line feeds gives the header and one line for each frame: not one line of the stack, whatever ends
it, and nothing that is found inside a line can add another one.
-/

namespace Retrace

open SourceMap (Position)

variable {σ ρ : Type}

/-- An outcome is a good value, or a fault that is told in one line. -/
def Tells {α : Type} (good : α → Prop) : Except Fault α → Prop
  | .ok value => good value
  | .error fault => OneLine fault.message

/-- The files tell in one line why they do not answer, unless the path itself has a line feed. -/
structure FileSystem.TellsInLine (files : FileSystem (StateM σ)) : Prop where
  holds : ∀ path, OneLine path → Always (files.holds path) (Tells fun _ => True)
  readText : ∀ path, OneLine path → Always (files.readText path) (Tells fun _ => True)

/-- The source of a position is a text without a line feed or null, and its name has none either. -/
structure SourceMap.Position.InOneLine (position : Position) : Prop where
  source : position.source = .null ∨ ∃ text, position.source = .string text ∧ OneLine text
  name : ∀ name ∈ position.name, OneLine name

/-- The positions that the decoder finds have no line feed, and it tells in one line why it finds
none. -/
structure Decoder.TellsInLine (decoder : Decoder (StateM σ) ρ) : Prop where
  locate : ∀ map line column, Always (decoder.locate map line column)
    (Tells fun place => ∀ position ∈ place, position.InOneLine)

/-- A source without a line feed shows without one. -/
theorem SourceMap.Position.InOneLine.display {position : Position} (inLine : position.InOneLine) :
    OneLine position.source.display := by
  rcases inLine.source with isNull | ⟨text, isText, oneLine⟩
  · rw [isNull]
    decide
  · rw [isText]
    exact oneLine

namespace MapCache

variable {files : FileSystem (StateM σ)} {path : String}

/-- A load tells in one line why it fails, whatever the decoder says of the text. -/
theorem load_tells (filesTell : files.TellsInLine) (decoder : Decoder (StateM σ) ρ)
    (isPath : OneLine path) : Always (load files decoder path) (Tells fun _ => True) := by
  unfold load
  split
  · exact .pure (show OneLine "file name was empty" by decide)
  · refine .bind (filesTell.holds path isPath) ?_
    rintro (fault | _ | _) tells
    · exact .pure tells
    · exact .pure ((OneLine.append (by decide) isPath).append (by decide))
    · refine .bind (filesTell.readText path isPath) ?_
      rintro (fault | text) tells
      · cases fault with
        | undecodable reason => exact .pure (show OneLine "could not parse source map" by decide)
        | access kind reason =>
          exact .pure ((OneLine.append (by decide) isPath).append (by decide))
        | _ => exact .pure tells
      · unfold decodeLoaded
        dsimp only
        split
        · exact .pure ((OneLine.append (by decide) isPath).append (by decide))
        · refine .bind (.trivial _) ?_
          rintro (fault | map) -
          · exact .pure (show OneLine "could not parse source map" by decide)
          · exact .pure True.intro

/-- A request to the cache tells in one line why it fails. -/
theorem fetch_tells (filesTell : files.TellsInLine) (decoder : Decoder (StateM σ) ρ)
    (isPath : OneLine path) (cache : MapCache ρ) :
    Always (cache.fetch files decoder path) fun answer => Tells (fun _ => True) answer.1 := by
  unfold fetch
  cases cache.find? path with
  | some map => exact .pure True.intro
  | none =>
    refine .bind (load_tells filesTell decoder isPath) ?_
    rintro (fault | map) tells
    · exact .pure tells
    · exact .pure True.intro

end MapCache

namespace Frame

variable {files : FileSystem (StateM σ)} {decoder : Decoder (StateM σ) ρ} {frame : Frame}
  {path : String} {mapPaths : List String}

/-- A frame whose parts have no line feed is written in one line, or it is told in one line that it
cannot be written. -/
theorem tells_of_lineText {method : Option String} {file : String}
    (isMethod : ∀ name ∈ method, OneLine name) (isFile : OneLine file) (line column : Option Int)
    {comment : Option String} (isComment : ∀ text ∈ comment, OneLine text) :
    Tells OneLine ((lineText method file line column comment).mapError .numeral) := by
  rcases lineText_cases isMethod isFile line column isComment with ⟨text, written, oneLine⟩ | failed
  · rw [written]
    exact oneLine
  · rw [failed]
    exact (show OneLine Number.NumeralFault.tooLarge.message by decide +kernel)

theorem commented_tells (inLine : frame.InOneLine) {comment : String}
    (isComment : OneLine comment) : Tells OneLine (frame.commented comment) := by
  refine tells_of_lineText inLine.method inLine.file _ _ ?_
  rintro _ ⟨⟩
  exact isComment

/-- A frame tells in one line why its source map cannot be used, if the reason is one. -/
theorem withoutMap_tells (inLine : frame.InOneLine) {detail : String} (isDetail : OneLine detail) :
    Tells OneLine (frame.withoutMap detail) :=
  commented_tells inLine ((OneLine.append (by decide) isDetail).append (by decide))

/-- A frame tells in one line why its position cannot be converted, if the reason is one. -/
theorem unconverted_tells (inLine : frame.InOneLine) {detail : String} (isDetail : OneLine detail) :
    Tells OneLine (frame.unconverted detail) :=
  commented_tells inLine ((OneLine.append (by decide) isDetail).append (by decide))

/-- A frame is written at its place in one line. -/
theorem relocated_tells (inLine : frame.InOneLine) {place : Option Position}
    (isPlace : ∀ position ∈ place, position.InOneLine) : Tells OneLine (frame.relocated place) := by
  unfold relocated
  cases place with
  | none => exact unconverted_tells inLine (by decide)
  | some position =>
    dsimp only
    split
    · exact unconverted_tells inLine (by decide)
    · refine tells_of_lineText ?_ (isPlace position rfl).display _ _ (by simp)
      unfold methodAt
      cases name : position.name with
      | none => exact inLine.method
      | some name =>
        dsimp only
        split
        · exact inLine.method
        · rintro _ ⟨⟩
          exact (isPlace position rfl).name _ ‹_›

/-- Looking a frame up gives one line, or tells in one why there is none. -/
theorem lookUp_tells (filesTell : files.TellsInLine) (decoderTells : decoder.TellsInLine)
    (inLine : frame.InOneLine) (isPath : OneLine path) (progress : Progress ρ) :
    Always (frame.lookUp files decoder path progress) fun answer => Tells OneLine answer.1 := by
  unfold lookUp lookUpBy
  cases frame.line with
  | none => exact .pure (oneLine_bareLineText inLine.method)
  | some number =>
    dsimp only
    split
    · exact .pure (oneLine_bareLineText inLine.method)
    · refine .bind (MapCache.fetch_tells filesTell decoder isPath progress.cache) ?_
      rintro ⟨fault | map, cache⟩ tells
      · cases fault with
        | load cause => exact .pure (withoutMap_tells inLine tells)
        | _ => exact .pure tells
      · refine .bind (decoderTells.locate map number frame.column) ?_
        rintro (fault | place) tells
        · exact .pure tells
        · exact .pure (relocated_tells inLine tells)

/-- Converting a frame gives one line, or tells in one why there is none. -/
theorem convert_tells (filesTell : files.TellsInLine) (decoderTells : decoder.TellsInLine)
    (paths : ∀ path ∈ mapPaths, OneLine path) (inLine : frame.InOneLine) (progress : Progress ρ) :
    Always (frame.convert files decoder mapPaths progress) fun answer =>
      Tells OneLine answer.1 := by
  unfold convert convertBy
  split
  · exact .pure (withoutMap_tells inLine (by decide))
  · split
    · have isComment : ∀ text ∈ (none : Option String), OneLine text := by simp
      exact .pure (tells_of_lineText inLine.method inLine.file none none isComment)
    · cases found : findMapPath frame.file mapPaths with
      | none => exact .pure (withoutMap_tells inLine (by decide))
      | some path =>
        have isPath : OneLine path := paths path (List.mem_of_find?_eq_some found)
        refine .bind (lookUp_tells filesTell decoderTells inLine isPath progress) ?_
        rintro ⟨fault | line, after⟩ tells
        · exact .pure (unconverted_tells inLine tells)
        · exact .pure tells

/-- Converting frames gives single lines, or tells in one line why there are none. -/
theorem convertAll_tells (filesTell : files.TellsInLine) (decoderTells : decoder.TellsInLine)
    (paths : ∀ path ∈ mapPaths, OneLine path) {frames : List Frame}
    (inLine : ∀ frame ∈ frames, frame.InOneLine) (progress : Progress ρ) :
    Always (convertAll files decoder mapPaths progress frames)
      (Tells fun lines => ∀ line ∈ lines, OneLine line) := by
  induction frames generalizing progress with
  | nil => exact .pure (by simp [Tells])
  | cons frame frames inductionHypothesis =>
    obtain ⟨first, others⟩ := List.forall_mem_cons.1 inLine
    refine .bind (convert_tells filesTell decoderTells paths first progress) ?_
    rintro ⟨fault | line, after⟩ oneLine
    · exact .pure oneLine
    · refine .bind (inductionHypothesis others after) ?_
      rintro (fault | lines) tells
      · exact .pure tells
      · exact .pure (List.forall_mem_cons.2 ⟨oneLine, tells⟩)

end Frame

/-- Single lines are what the text that they are joined to is cut into. -/
theorem pieces_joinLines {lines : List String} (some : lines ≠ [])
    (oneLine : ∀ line ∈ lines, OneLine line) :
    Text.pieces '\n' (joinLines lines).toList = lines.map String.toList := by
  have joined : (joinLines lines).toList = List.intercalate ['\n'] (lines.map String.toList) := by
    rw [joinLines, String.toList_intercalate]
    rfl
  rw [joined]
  refine Text.pieces_intercalate (mt List.map_eq_nil_iff.1 some) ?_
  exact List.forall_mem_map.2 oneLine

/-- The header of a stack is its first line, so it has no line feed. -/
theorem oneLine_of_header? {stack header : String} (isHeader : header? stack = some header) :
    OneLine header := by
  obtain ⟨first, rest, isStack, -, rfl⟩ := header?_eq_some_iff.1 isHeader
  exact OneLine.part (Text.not_mem_of_mem_lines (isStack ▸ List.mem_cons_self)) List.infix_rfl

/-- As long as nobody outside brings in a line feed, a stack with frames is converted to a text whose
lines are the header, if its first line is one, and one line for each frame in their order. -/
theorem convertStack_pieces {files : FileSystem (StateM σ)} {decoder : Decoder (StateM σ) ρ}
    (filesTell : files.TellsInLine) (decoderTells : decoder.TellsInLine) {config : Config}
    (paths : ∀ path ∈ config.mapPaths, OneLine path) {stack : String} {frames : List Frame}
    (isRead : Frame.ofStack stack = .ok frames) (some : frames ≠ []) (state : σ) :
    ∃ text first rest lines,
      ((convertStack files decoder .grammars config stack).run state).1 = .ok (.converted text) ∧
      Text.lines stack.toList = first :: rest ∧
      Text.pieces '\n' text.toList =
        (if headerMark.toList <+: first then [first] else []) ++ lines.map String.toList ∧
      List.Forall₂ Frame.Gives frames lines ∧ ∀ line ∈ lines, Frame.Opens line := by
  have reads : StackReader.grammars stack = .ok frames := by
    rw [StackReader.grammars, isRead]
    rfl
  have hasLines : Text.lines stack.toList ≠ [] := by
    intro none
    rw [Frame.ofStack, none] at isRead
    cases isRead
    exact some rfl
  have written : stack ≠ "" := by
    rintro rfl
    exact hasLines rfl
  obtain ⟨first, rest, isStack⟩ := List.exists_cons_of_ne_nil hasLines
  have converts : Always (Frame.convertAll files decoder config.mapPaths .start frames)
      fun answer => ∃ lines, answer = .ok lines ∧
        List.Forall₂ Frame.Gives frames lines ∧ ∀ line ∈ lines, OneLine line := by
    intro state
    obtain ⟨lines, converted, gives⟩ := Frame.convertAll_gives files decoder config.mapPaths
      (Frame.writable_of_ofStack isRead) .start state
    have tells := Frame.convertAll_tells filesTell decoderTells paths
      (Frame.inOneLine_of_ofStack isRead) .start state
    rw [converted] at tells
    exact ⟨lines, converted, gives, tells⟩
  obtain ⟨lines, answer, gives, oneLine⟩ := convertStack_of_convertAll written reads some converts state
  refine ⟨_, first, rest, lines, answer, isStack, ?_, gives, Frame.opens_of_gives gives⟩
  have hasOutput : (header? stack).toList ++ lines ≠ [] := by
    refine List.append_ne_nil_of_right_ne_nil _ ?_
    rintro rfl
    cases gives
    exact some rfl
  have outputInLine : ∀ line ∈ (header? stack).toList ++ lines, OneLine line :=
    List.forall_mem_append.2
      ⟨fun header isHeader => oneLine_of_header? (Option.mem_toList.1 isHeader), oneLine⟩
  rw [pieces_joinLines hasOutput outputInLine, List.map_append, toList_header? isStack]
  split <;> simp

/-- A decoder that finds a named place in some source on every line but the fifth. -/
def namedDecoder : Decoder (StateM Nat) Unit where
  decode _ := pure (.ok ())
  locate _ line column := pure
    (if line = 5 then .error (.runtime "no such line")
      else .ok (some ⟨.string "src/a.ts", some 7, column, some "named"⟩))

/-- A stack whose lines end in three ways, none of them a line feed. -/
def oddlyEndedStack : String :=
  "Error: lost\r    at f (a.js:1:2)\u2028    at g (a.js:5:6)\x0c    at h (b.js:3:4)"

/-- A stack without line feeds is converted to a header and three lines, although the files and the
decoder fail now and then. -/
theorem convertStack_pieces_of_oddlyEndedStack :
    ∃ text first rest lines,
      ((convertStack unsteadyFiles namedDecoder .grammars singleMap oddlyEndedStack).run 1).1 =
        .ok (.converted text) ∧
      Text.lines oddlyEndedStack.toList = first :: rest ∧
      Text.pieces '\n' text.toList =
        (if headerMark.toList <+: first then [first] else []) ++ lines.map String.toList ∧
      List.Forall₂ Frame.Gives
        [⟨some "f", "a.js", some 1, some 2⟩, ⟨some "g", "a.js", some 5, some 6⟩,
          ⟨some "h", "b.js", some 3, some 4⟩] lines ∧
      ∀ line ∈ lines, Frame.Opens line := by
  have filesTell : unsteadyFiles.TellsInLine := by
    constructor
    · intro path _ asked
      exact True.intro
    · intro path isPath asked
      simp only [unsteadyFiles, StateT.run]
      split
      · exact isPath
      · exact True.intro
  have decoderTells : namedDecoder.TellsInLine := by
    constructor
    intro map line column
    simp only [namedDecoder]
    split
    · exact .pure (show OneLine "no such line" by decide)
    · refine .pure ?_
      rintro _ ⟨⟩
      refine ⟨.inr ⟨_, rfl, by decide⟩, ?_⟩
      rintro _ ⟨⟩
      decide
  have isRead : Frame.ofStack oddlyEndedStack =
      .ok [⟨some "f", "a.js", some 1, some 2⟩, ⟨some "g", "a.js", some 5, some 6⟩,
        ⟨some "h", "b.js", some 3, some 4⟩] := by
    decide +kernel
  exact convertStack_pieces filesTell decoderTells (by decide) isRead (by decide) 1

end Retrace
