import Mathlib.Data.List.Basic
import Retrace.Proofs.Conversion.Isolation

/-!
# What a frame's line depends on

Converting a stack keeps the loaded source maps and the files that have failed. When the files and
the decoder answer alike every time, neither shows: a frame's line follows from the frame itself and
from whether some earlier frame of the same file triggered a failure. `statelessLine` says how,
without a cache and without a memory of files, and `Progress.Reflects` is what the memory of a run
has to do with the frames behind it.
-/

namespace Retrace

open SourceMap (Position)

namespace Frame

/-- The line of a frame whose position gave a fault instead of a line keeps the frame's place. -/
def recovered (frame : Frame) (outcome : Except Fault String) : String :=
  match outcome with
  | .ok line => line
  | .error fault => frame.ownLine (positionFailureComment fault.message)

/-- The outcome is a load fault, and no other fault. -/
def isLoadFault {α : Type} : Except Fault α → Bool
  | .error (.load _) => true
  | _ => false

theorem isLoadFault_iff {α : Type} {outcome : Except Fault α} :
    isLoadFault outcome = true ↔ ∃ cause, outcome = .error (.load cause) := by
  constructor
  · intro isFault
    match outcome, isFault with
    | .error (.load cause), _ => exact ⟨cause, rfl⟩
  · rintro ⟨cause, rfl⟩
    rfl

/-- The line of a frame that was looked up. A place without a line counts as none, and one that
cannot be written leaves the frame where it is. -/
def placedLine (frame : Frame) (place : Option Position) : String :=
  match place with
  | none => frame.ownLine (positionFailureComment "original position not found")
  | some position =>
    if position.line = none || position.line = some 0 then
      frame.ownLine (positionFailureComment "original position not found")
    else
      frame.recovered ((lineText (frame.methodAt position) position.source.display position.line
        position.column none).mapError .numeral)

section Specification

variable {ρ : Type} (files : FileSystem Id) (decoder : Decoder Id ρ) (mapPaths : List String)

/-- The frame shows that its file's source map cannot be used: there is none, or it is needed and
does not load. -/
def triggers (frame : Frame) : Bool :=
  frame.hasLocation &&
    match findMapPath frame.file mapPaths with
    | none => true
    | some path => frame.asksForLine && isLoadFault (MapCache.loadOutcome files decoder path)

/-- The line of a frame that asks for a line of its file, by the source map of a path. -/
def lookedUpLine (frame : Frame) (path : String) (line : Int) : String :=
  match MapCache.loadOutcome files decoder path with
  | .error (.load cause) => frame.ownLine (mapFailureComment cause.message)
  | .error fault => frame.ownLine (positionFailureComment fault.message)
  | .ok map =>
    match (decoder.locate map line frame.column).run with
    | .error fault => frame.ownLine (positionFailureComment fault.message)
    | .ok place => frame.placedLine place

/-- The line of a frame whose file has not failed before. -/
def freshLine (frame : Frame) : String :=
  if !frame.hasLocation then frame.methodLine
  else
    match findMapPath frame.file mapPaths with
    | none => frame.ownLine (mapFailureComment "source map not found")
    | some path =>
      match frame.line with
      | none => bareLineText frame.method
      | some line =>
        if line < 1 then bareLineText frame.method
        else lookedUpLine files decoder frame path line

/-- Some of the frames triggered a failure of the file. -/
def anyTriggers (frames : List Frame) (file : String) : Bool :=
  frames.any fun frame => frame.file = file && frame.triggers files decoder mapPaths

/-- The line of a frame behind the given earlier ones. -/
def statelessLine (earlier : List Frame) (frame : Frame) : String :=
  if anyTriggers files decoder mapPaths earlier frame.file then
    frame.ownLine (mapFailureComment "previous error")
  else frame.freshLine files decoder mapPaths

end Specification

end Frame

namespace MapCache

variable {σ ρ : Type}

/-- Every source map in the cache is what a load of its path gives. -/
def Sound (files : FileSystem Id) (decoder : Decoder Id ρ) (cache : MapCache ρ) : Prop :=
  ∀ path map, cache.find? path = some map → loadOutcome files decoder path = .ok map

theorem Sound.insert {files : FileSystem Id} {decoder : Decoder Id ρ} {cache : MapCache ρ}
    (sound : Sound files decoder cache) {path : String} {map : ρ}
    (loads : loadOutcome files decoder path = .ok map) :
    Sound files decoder (cache.insert path map) := by
  intro other found isFound
  rw [find?_insert] at isFound
  split at isFound
  next same =>
    cases isFound
    rw [← same, loads]
  next => exact sound other found isFound

/-- A request to a sound cache gives what a load gives, and leaves the cache sound. -/
theorem fetch_always {files : FileSystem (StateM σ)} {decoder : Decoder (StateM σ) ρ}
    {fixedFiles : FileSystem Id} {fixedDecoder : Decoder Id ρ}
    (answers : files.AnswersAs fixedFiles) (decodes : decoder.DecodesAs fixedDecoder)
    {cache : MapCache ρ} (sound : Sound fixedFiles fixedDecoder cache) (path : String) :
    Always (cache.fetch files decoder path) fun answer =>
      answer.1 = loadOutcome fixedFiles fixedDecoder path ∧
        Sound fixedFiles fixedDecoder answer.2 := by
  unfold fetch
  cases known : cache.find? path with
  | some map => exact .pure ⟨(sound path map known).symm, sound⟩
  | none =>
    refine .bind (load_always answers decodes path) ?_
    rintro _ rfl
    cases loads : loadOutcome fixedFiles fixedDecoder path with
    | error fault => exact .pure ⟨rfl, sound⟩
    | ok map => exact .pure ⟨rfl, sound.insert loads⟩

end MapCache

/-- What a run remembers tells of the frames behind it: the cache is sound, and the failed files are
exactly those of which some frame triggered a failure. -/
structure Progress.Reflects {ρ : Type} (files : FileSystem Id) (decoder : Decoder Id ρ)
    (mapPaths : List String) (earlier : List Frame) (progress : Progress ρ) : Prop where
  sound : progress.cache.Sound files decoder
  failed : ∀ file,
    progress.failed.contains file = Frame.anyTriggers files decoder mapPaths earlier file

namespace Progress

variable {ρ : Type} {files : FileSystem Id} {decoder : Decoder Id ρ} {mapPaths : List String}
  {earlier : List Frame} {progress : Progress ρ} {frame : Frame}

/-- In front of all frames nothing is remembered. -/
theorem Reflects.start : Reflects files decoder mapPaths [] (Progress.start : Progress ρ) where
  sound := by
    intro path map found
    cases found
  failed := fun file => rfl

/-- A frame that triggers nothing leaves the failed files as they are. -/
theorem Reflects.keep (reflects : Reflects files decoder mapPaths earlier progress)
    (quiet : frame.triggers files decoder mapPaths = false) {cache : MapCache ρ}
    (sound : cache.Sound files decoder) :
    Reflects files decoder mapPaths (earlier ++ [frame]) { progress with cache := cache } where
  sound := sound
  failed := by
    intro file
    rw [reflects.failed file]
    simp [Frame.anyTriggers, quiet]

/-- Whether a frame of a failed file triggers a failure again makes no difference. -/
theorem Reflects.again (reflects : Reflects files decoder mapPaths earlier progress)
    (known : progress.failed.contains frame.file = true) :
    Reflects files decoder mapPaths (earlier ++ [frame]) progress where
  sound := reflects.sound
  failed := by
    intro file
    rw [reflects.failed] at known
    rw [reflects.failed]
    by_cases same : frame.file = file
    · subst same
      simp only [Frame.anyTriggers] at known ⊢
      simp [known]
    · simp [Frame.anyTriggers, same]

/-- A frame that triggers a failure adds its file to the failed ones. -/
theorem Reflects.fail (reflects : Reflects files decoder mapPaths earlier progress)
    (triggers : frame.triggers files decoder mapPaths = true) :
    Reflects files decoder mapPaths (earlier ++ [frame]) (progress.fail frame.file) := by
  by_cases known : progress.failed.contains frame.file = true
  · rw [Progress.fail, if_pos known]
    exact reflects.again known
  · rw [Progress.fail, if_neg known]
    refine ⟨reflects.sound, fun file => ?_⟩
    have before := reflects.failed file
    simp only [Frame.anyTriggers, List.any_append, List.any_cons, List.any_nil, triggers,
      Bool.and_true, Bool.or_false] at before ⊢
    have same : (file == frame.file) = decide (frame.file = file) := by
      rw [beq_eq_decide, decide_eq_decide]
      exact eq_comm
    rw [List.contains_cons, before, same, Bool.or_comm]

end Progress

namespace Frame

variable {σ ρ : Type} {files : FileSystem (StateM σ)} {decoder : Decoder (StateM σ) ρ}
  {fixedFiles : FileSystem Id} {fixedDecoder : Decoder Id ρ} {mapPaths : List String}
  {earlier : List Frame} {progress : Progress ρ} {frame : Frame}

/-- A frame triggers a failure exactly if it has a place and either no source map belongs to its
file, or it asks for a line of one that does not load. -/
theorem triggers_iff :
    frame.triggers fixedFiles fixedDecoder mapPaths = true ↔ frame.hasLocation = true ∧
      (findMapPath frame.file mapPaths = none ∨ ∃ path line cause,
        findMapPath frame.file mapPaths = some path ∧ frame.line = some line ∧ 1 ≤ line ∧
        MapCache.loadOutcome fixedFiles fixedDecoder path = .error (.load cause)) := by
  unfold triggers asksForLine
  cases findMapPath frame.file mapPaths with
  | none => simp
  | some path =>
    simp only [Bool.and_eq_true, isLoadFault_iff, Option.any_eq_true, decide_eq_true_eq]
    constructor
    · rintro ⟨placed, ⟨line, isLine, positive⟩, cause, loads⟩
      exact ⟨placed, .inr ⟨path, line, cause, rfl, isLine, positive, loads⟩⟩
    · rintro ⟨placed, missing | ⟨_, line, cause, ⟨⟩, isLine, positive, loads⟩⟩
      · cases missing
      · exact ⟨placed, ⟨line, isLine, positive⟩, cause, loads⟩

/-- A frame that was looked up gets the line of its place. -/
theorem recovered_relocated (writable : frame.Writable) (place : Option Position) :
    frame.recovered (frame.relocated place) = frame.placedLine place := by
  unfold relocated placedLine
  cases place with
  | none => rw [unconverted_of_writable writable]; rfl
  | some position =>
    dsimp only
    split
    · rw [unconverted_of_writable writable]; rfl
    · rfl

/-- Looking a frame up tells whether the frame triggers a failure, and gives its line if places are
fixed too and the line can be written. -/
theorem lookUp_always (answers : files.AnswersAs fixedFiles)
    (decodes : decoder.DecodesAs fixedDecoder)
    (reflects : progress.Reflects fixedFiles fixedDecoder mapPaths earlier)
    (placed : frame.hasLocation = true) {path : String}
    (found : findMapPath frame.file mapPaths = some path) :
    Always (frame.lookUp files decoder path progress) fun answer =>
      (decoder.AnswersAs fixedDecoder → frame.Writable →
        frame.recovered answer.1 = frame.freshLine fixedFiles fixedDecoder mapPaths) ∧
        answer.2.Reflects fixedFiles fixedDecoder mapPaths (earlier ++ [frame]) := by
  have triggers : frame.triggers fixedFiles fixedDecoder mapPaths =
      (frame.asksForLine && isLoadFault (MapCache.loadOutcome fixedFiles fixedDecoder path)) := by
    simp [Frame.triggers, placed, found]
  have fresh : frame.freshLine fixedFiles fixedDecoder mapPaths =
      match frame.line with
      | none => bareLineText frame.method
      | some line =>
        if line < 1 then bareLineText frame.method
        else lookedUpLine fixedFiles fixedDecoder frame path line := by
    simp [freshLine, placed, found]
  have bare (asksNot : frame.asksForLine = false) :
      progress.Reflects fixedFiles fixedDecoder mapPaths (earlier ++ [frame]) :=
    reflects.keep (by simp [triggers, asksNot]) reflects.sound
  rw [fresh]
  unfold lookUp lookUpBy
  cases line : frame.line with
  | none => exact .pure ⟨fun _ _ => rfl, bare (not_asksForLine_of_none line)⟩
  | some number =>
    dsimp only
    split
    next tooSmall => exact .pure ⟨fun _ _ => rfl, bare (not_asksForLine_of_lt line tooSmall)⟩
    next large =>
      have asks := asksForLine_of_not_lt line large
      refine .bind (MapCache.fetch_always answers decodes reflects.sound path) ?_
      rintro ⟨_, cache⟩ ⟨rfl, sound⟩
      have loaded (works : isLoadFault (MapCache.loadOutcome fixedFiles fixedDecoder path) = false) :
          Progress.Reflects fixedFiles fixedDecoder mapPaths (earlier ++ [frame])
            { progress with cache := cache } :=
        reflects.keep (by simp [triggers, works]) sound
      unfold lookedUpLine
      cases outcome : MapCache.loadOutcome fixedFiles fixedDecoder path with
      | error fault =>
        cases fault with
        | load cause =>
          have failing : frame.triggers fixedFiles fixedDecoder mapPaths = true := by
            simp [triggers, asks, outcome, isLoadFault]
          refine .pure ⟨?_, ?_⟩
          · intro _ writable
            rw [Telling.plain_words_bind, withoutMap_of_writable writable]
            rfl
          · exact Progress.Reflects.fail ⟨sound, reflects.failed⟩ failing
        | _ => exact .pure ⟨fun _ _ => rfl, loaded (by rw [outcome]; rfl)⟩
      | ok map =>
        dsimp only
        have located : Always (decoder.locate map number frame.column) fun place =>
            decoder.AnswersAs fixedDecoder →
              (fixedDecoder.locate map number frame.column).run = place :=
          fun state locates => (locates.locate map number frame.column state).symm
        refine .bind located ?_
        rintro (fault | place) located
        · refine .pure ⟨fun locates _ => ?_, loaded (by rw [outcome]; rfl)⟩
          rw [located locates]
          rfl
        · refine .pure ⟨fun locates writable => ?_, loaded (by rw [outcome]; rfl)⟩
          rw [located locates]
          exact recovered_relocated writable place

/-- Converting a frame remembers what the frame shows, and gives its line behind the earlier frames if
places are fixed too and the line can be written. -/
theorem convert_always (answers : files.AnswersAs fixedFiles)
    (decodes : decoder.DecodesAs fixedDecoder)
    (reflects : progress.Reflects fixedFiles fixedDecoder mapPaths earlier) :
    Always (frame.convert files decoder mapPaths progress) fun answer =>
      (decoder.AnswersAs fixedDecoder → frame.Writable →
        answer.1 = .ok (statelessLine fixedFiles fixedDecoder mapPaths earlier frame)) ∧
        answer.2.Reflects fixedFiles fixedDecoder mapPaths (earlier ++ [frame]) := by
  unfold convert convertBy statelessLine
  rw [← reflects.failed]
  split
  next known =>
    exact .pure ⟨fun _ writable => withoutMap_of_writable writable _, reflects.again known⟩
  next =>
    split
    next nowhere =>
      have quiet : frame.triggers fixedFiles fixedDecoder mapPaths = false := by
        simp only [Bool.not_eq_true'] at nowhere
        simp [triggers, nowhere]
      refine .pure ⟨?_, reflects.keep quiet reflects.sound⟩
      intro _ _
      rw [lineText_nowhere, freshLine, if_pos nowhere]
      rfl
    next somewhere =>
      have placed : frame.hasLocation = true := by simpa using somewhere
      cases found : findMapPath frame.file mapPaths with
      | none =>
        have failing : frame.triggers fixedFiles fixedDecoder mapPaths = true := by
          simp [triggers, placed, found]
        refine .pure ⟨?_, reflects.fail failing⟩
        intro _ writable
        rw [withoutMap_of_writable writable, freshLine, if_neg somewhere, found]
      | some path =>
        refine .bind (lookUp_always answers decodes reflects placed found) ?_
        rintro ⟨fault | line, after⟩ ⟨line_eq, reflects⟩
        · refine .pure ⟨?_, reflects⟩
          intro locates writable
          rw [← line_eq locates writable, Telling.plain_words_bind]
          exact unconverted_of_writable writable _
        · exact .pure ⟨fun locates writable => congrArg _ (line_eq locates writable), reflects⟩

end Frame

/-- Files of which one is there, one is gone and one cannot be asked for. -/
def mixedFiles : FileSystem Id where
  holds path := pure (if path = "c.js.map" then .error (.runtime "lost") else .ok (path = "a.js.map"))
  isDirectory _ := pure (.ok false)
  readText path := pure (.ok path)
  listDirectory _ := pure (.ok [])

/-- A decoder whose only source map has nothing at column zero. -/
def mixedDecoder : Decoder Id Unit where
  decode _ := pure (.ok ())
  locate _ _ column :=
    pure (.ok (if column = some 0 then none else some ⟨.null, some 7, column, some "f"⟩))

/-- Frames of three files, of which the second one fails and then fails again. -/
def mixedFrames : List Frame :=
  [⟨none, "a.js", some 1, some 0⟩, ⟨none, "b.js", some 1, none⟩, ⟨none, "c.js", some 1, none⟩,
   ⟨none, "b.js", none, none⟩, ⟨none, "c.js", some 0, some 4⟩, ⟨none, "a.js", some 1, some 5⟩]

end Retrace
