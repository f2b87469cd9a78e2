import Retrace.Proofs.Conversion.Stateless
import Retrace.Proofs.Storage.Exchanges

/-!
# What a conversion asks

When the files and the decoder answer alike every time, the exchanges of a conversion follow from the
frames. Something is loaded for a frame only if it asks for a line, some path belongs to its file, no
earlier frame triggered a failure of that file, and no earlier frame has loaded the path. `attempts`
lists the loads that this leaves, and a conversion has exactly their exchanges.
-/

namespace Retrace

namespace MapCache

/-- The exchanges of one load with fixed answers. -/
def loadExchanges (files : FileSystem Id) (path : String) : List Exchange :=
  attempt path (files.holds path).run (files.readText path).run

end MapCache

namespace Frame

section Specification

variable {ρ : Type} (files : FileSystem Id) (decoder : Decoder Id ρ) (mapPaths : List String)

/-- The path that a frame needs, as long as its file has not failed. -/
def needs? (frame : Frame) : Option String :=
  if frame.asksForLine then findMapPath frame.file mapPaths else none

/-- The path can be loaded, and some of the frames needs it. -/
def anyLoads (frames : List Frame) (path : String) : Bool :=
  (MapCache.loadOutcome files decoder path).isOk &&
    frames.any fun frame => frame.needs? mapPaths = some path

/-- The path that is loaded for a frame behind the given earlier ones. -/
def loads? (earlier : List Frame) (frame : Frame) : Option String :=
  if anyTriggers files decoder mapPaths earlier frame.file then none
  else (frame.needs? mapPaths).filter fun path => !anyLoads files decoder mapPaths earlier path

/-- The loads for frames behind the given earlier ones, each with the file that it is for. -/
def attempts (earlier : List Frame) : List Frame → List (String × String)
  | [] => []
  | frame :: frames =>
    (frame.loads? files decoder mapPaths earlier).toList.map (frame.file, ·) ++
      attempts (earlier ++ [frame]) frames

/-- The exchanges of the loads for frames behind the given earlier ones. -/
def attemptExchanges (earlier frames : List Frame) : List Exchange :=
  (attempts files decoder mapPaths earlier frames).flatMap fun attempt =>
    MapCache.loadExchanges files attempt.2

end Specification

end Frame

namespace MapCache

variable {σ ρ : Type} {files : FileSystem (StateM σ)} {decoder : Decoder (StateM σ) ρ}
  {fixedFiles : FileSystem Id} {fixedDecoder : Decoder Id ρ}

/-- With fixed answers, every load of a path has the same exchanges. -/
theorem load_adds (answers : files.AnswersAs fixedFiles) (path : String) :
    Adds (load files.recorded decoder.recorded path) fun _ added =>
      added = loadExchanges fixedFiles path := by
  intro state
  refine ⟨_, load_exchanges files decoder path state, ?_⟩
  rw [answers.holds path state.outside, answers.readText path, loadExchanges]

/-- A request loads the path unless its source map is there, and keeps what it brings. -/
theorem fetch_adds (answers : files.AnswersAs fixedFiles) (decodes : decoder.DecodesAs fixedDecoder)
    (cache : MapCache ρ) (path : String) :
    Adds (cache.fetch files.recorded decoder.recorded path) fun answer added =>
      added = (if cache.contains path then [] else loadExchanges fixedFiles path) ∧
      ∀ other, answer.2.contains other =
        (cache.contains other || (loadOutcome fixedFiles fixedDecoder path).isOk && path = other) := by
  unfold fetch
  cases known : cache.find? path with
  | some map =>
    refine .pure ⟨by simp [contains, known], fun other => ?_⟩
    by_cases same : path = other
    · simp [← same, contains, known]
    · simp [same]
  | none =>
    have missing : cache.contains path = false := by simp [contains, known]
    rw [missing]
    refine .bind (.of_always (load_always answers.recorded decodes.recorded path)
      (load_adds answers path)) ?_
    rintro _ added ⟨rfl, rfl⟩
    cases loadOutcome fixedFiles fixedDecoder path with
    | error fault => exact .pure ⟨by simp, fun other => by simp [Except.isOk, Except.toBool]⟩
    | ok map =>
      refine .pure ⟨by simp, fun other => ?_⟩
      by_cases same : path = other <;> simp [contains, find?_insert, same, Except.isOk, Except.toBool]

end MapCache

@[simp]
theorem Progress.fail_cache {ρ : Type} (progress : Progress ρ) (file : String) :
    (progress.fail file).cache = progress.cache := by
  unfold fail
  split <;> rfl

/-- Exactly the source maps are in the cache that the frames behind a run have loaded. -/
def Progress.HoldsLoaded {ρ : Type} (files : FileSystem Id) (decoder : Decoder Id ρ)
    (mapPaths : List String) (earlier : List Frame) (progress : Progress ρ) : Prop :=
  ∀ path, progress.cache.contains path = Frame.anyLoads files decoder mapPaths earlier path

namespace Frame

section Specification

variable {ρ : Type} {files : FileSystem Id} {decoder : Decoder Id ρ} {mapPaths : List String}
  {earlier : List Frame} {frame : Frame} {path : String}

/-- One more frame loads the path that it needs, if that can be loaded. -/
theorem anyLoads_concat : anyLoads files decoder mapPaths (earlier ++ [frame]) path =
    (anyLoads files decoder mapPaths earlier path ||
      (MapCache.loadOutcome files decoder path).isOk && frame.needs? mapPaths = some path) := by
  simp [anyLoads, Bool.and_or_distrib_left]

/-- A file that failed has no path, or one that cannot be loaded. -/
theorem not_isOk_of_anyTriggers
    (failed : anyTriggers files decoder mapPaths earlier frame.file = true)
    (needs : frame.needs? mapPaths = some path) :
    (MapCache.loadOutcome files decoder path).isOk = false := by
  have found : findMapPath frame.file mapPaths = some path := by
    unfold needs? at needs
    split at needs
    · exact needs
    · cases needs
  obtain ⟨other, -, triggers⟩ := List.any_eq_true.1 failed
  rw [Bool.and_eq_true, decide_eq_true_eq] at triggers
  obtain ⟨same, triggers⟩ := triggers
  obtain ⟨-, missing | ⟨_, _, cause, foundToo, -, -, fails⟩⟩ := triggers_iff.1 triggers
  · rw [same, found] at missing
    cases missing
  · rw [same, found] at foundToo
    cases foundToo
    rw [fails]
    rfl

/-- Nothing is loaded for a frame that needs no path. -/
theorem attemptExchanges_of_needs?_eq_none (needsNone : frame.needs? mapPaths = none) :
    attemptExchanges files decoder mapPaths earlier [frame] = [] := by
  simp [attemptExchanges, attempts, loads?, needsNone]

/-- Nothing is loaded for a frame of a file that failed. -/
theorem attemptExchanges_of_anyTriggers
    (failed : anyTriggers files decoder mapPaths earlier frame.file = true) :
    attemptExchanges files decoder mapPaths earlier [frame] = [] := by
  simp [attemptExchanges, attempts, loads?, failed]

/-- For any other frame that asks for a line, the path of its file is loaded unless it was before. -/
theorem attemptExchanges_of_findMapPath
    (working : anyTriggers files decoder mapPaths earlier frame.file = false)
    (found : findMapPath frame.file mapPaths = some path) :
    attemptExchanges files decoder mapPaths earlier [frame] =
      if frame.asksForLine && !anyLoads files decoder mapPaths earlier path then
        MapCache.loadExchanges files path else [] := by
  cases asks : frame.asksForLine <;>
    cases known : anyLoads files decoder mapPaths earlier path <;>
    simp [attemptExchanges, attempts, loads?, needs?, working, found, asks, known, Option.filter]

/-- The exchanges for a frame stand in front of those for the frames behind it. -/
theorem attemptExchanges_cons (frames : List Frame) :
    attemptExchanges files decoder mapPaths earlier (frame :: frames) =
      attemptExchanges files decoder mapPaths earlier [frame] ++
        attemptExchanges files decoder mapPaths (earlier ++ [frame]) frames := by
  simp [attemptExchanges, attempts]

end Specification

end Frame

/-- In front of all frames nothing is loaded. -/
theorem Progress.HoldsLoaded.start {ρ : Type} {files : FileSystem Id} {decoder : Decoder Id ρ}
    {mapPaths : List String} :
    (Progress.start : Progress ρ).HoldsLoaded files decoder mapPaths [] := by
  intro path
  exact (Bool.and_false _).symm

/-- The cache stays as it is for a frame that needs no path that can be loaded. -/
theorem Progress.HoldsLoaded.keep {ρ : Type} {files : FileSystem Id} {decoder : Decoder Id ρ}
    {mapPaths : List String} {earlier : List Frame} {progress : Progress ρ} {frame : Frame}
    (holds : progress.HoldsLoaded files decoder mapPaths earlier)
    (quiet : ∀ path, frame.needs? mapPaths = some path →
      (MapCache.loadOutcome files decoder path).isOk = false)
    {after : Progress ρ} (same : after.cache = progress.cache) :
    after.HoldsLoaded files decoder mapPaths (earlier ++ [frame]) := by
  intro path
  rw [same, holds, Frame.anyLoads_concat]
  by_cases needs : frame.needs? mapPaths = some path
  · simp [quiet path needs]
  · simp [needs]

/-- Behind a frame whose path was looked up, the path is in the cache if it could be loaded. -/
theorem Progress.HoldsLoaded.load {ρ : Type} {files : FileSystem Id} {decoder : Decoder Id ρ}
    {mapPaths : List String} {earlier : List Frame} {progress : Progress ρ} {frame : Frame}
    {path : String} (holds : progress.HoldsLoaded files decoder mapPaths earlier)
    (found : findMapPath frame.file mapPaths = some path) {after : Progress ρ}
    (contains : ∀ other, after.cache.contains other = (progress.cache.contains other ||
      frame.asksForLine && ((MapCache.loadOutcome files decoder path).isOk && path = other))) :
    after.HoldsLoaded files decoder mapPaths (earlier ++ [frame]) := by
  intro other
  rw [contains other, holds other, Frame.anyLoads_concat, Frame.needs?, found]
  by_cases same : path = other
  · cases frame.asksForLine <;> simp [same]
  · cases frame.asksForLine <;> simp [same]

namespace Frame

section Runs

variable {σ ρ : Type} {files : FileSystem (StateM σ)} {decoder : Decoder (StateM σ) ρ}
  {fixedFiles : FileSystem Id} {fixedDecoder : Decoder Id ρ} {mapPaths : List String}
  {earlier : List Frame} {progress : Progress ρ} {frame : Frame}

/-- A frame that asks for a line requests its path, and no other frame requests anything. -/
theorem lookUp_adds (answers : files.AnswersAs fixedFiles)
    (decodes : decoder.DecodesAs fixedDecoder) (path : String) :
    Adds (frame.lookUp files.recorded decoder.recorded path progress) fun answer added =>
      added = (if frame.asksForLine && !progress.cache.contains path then
        MapCache.loadExchanges fixedFiles path else []) ∧
      ∀ other, answer.2.cache.contains other = (progress.cache.contains other ||
        frame.asksForLine && ((MapCache.loadOutcome fixedFiles fixedDecoder path).isOk &&
          path = other)) := by
  unfold lookUp lookUpBy
  cases line : frame.line with
  | none => exact .pure (by simp [not_asksForLine_of_none line])
  | some number =>
    dsimp only
    split
    next tooSmall =>
      have asksNot := not_asksForLine_of_lt line tooSmall
      exact .pure (by simp [asksNot])
    next large =>
      have asks := asksForLine_of_not_lt line large
      refine .bind (MapCache.fetch_adds answers decodes progress.cache path) ?_
      rintro ⟨loaded, cache⟩ added ⟨rfl, contains⟩
      -- nothing is asked behind the request, whatever it gives
      have rest (line : Except Fault String) (after : Progress ρ) (same : after.cache = cache) :
          Adds (pure (line, after) : StateM (Recorded σ) _) fun answer more =>
            (if progress.cache.contains path then []
              else MapCache.loadExchanges fixedFiles path) ++ more =
                (if frame.asksForLine && !progress.cache.contains path then
                  MapCache.loadExchanges fixedFiles path else []) ∧
            ∀ other, answer.2.cache.contains other = (progress.cache.contains other ||
              frame.asksForLine && ((MapCache.loadOutcome fixedFiles fixedDecoder path).isOk &&
                path = other)) := by
        refine .pure ⟨?_, fun other => ?_⟩
        · cases progress.cache.contains path <;> simp [asks]
        · rw [same, asks, Bool.true_and]
          exact contains other
      cases loaded with
      | error fault =>
        cases fault with
        | load cause => exact rest _ _ (Progress.fail_cache _ _)
        | _ => exact rest _ _ rfl
      | ok map =>
        refine .bind (.locate decoder map number frame.column) ?_
        rintro place _ rfl
        cases place with
        | error fault => exact rest _ _ rfl
        | ok place => exact rest _ _ rfl

/-- Converting a frame has the exchanges of the load for it, if there is one. -/
theorem convert_adds (answers : files.AnswersAs fixedFiles)
    (decodes : decoder.DecodesAs fixedDecoder)
    (reflects : progress.Reflects fixedFiles fixedDecoder mapPaths earlier)
    (holds : progress.HoldsLoaded fixedFiles fixedDecoder mapPaths earlier) :
    Adds (frame.convert files.recorded decoder.recorded mapPaths progress) fun answer added =>
      added = attemptExchanges fixedFiles fixedDecoder mapPaths earlier [frame] ∧
      answer.2.HoldsLoaded fixedFiles fixedDecoder mapPaths (earlier ++ [frame]) := by
  unfold convert convertBy
  rw [reflects.failed]
  split
  next failed =>
    refine .pure ⟨(attemptExchanges_of_anyTriggers failed).symm, ?_⟩
    exact holds.keep (fun path needs => not_isOk_of_anyTriggers failed needs) rfl
  next working =>
    have working : anyTriggers fixedFiles fixedDecoder mapPaths earlier frame.file = false := by
      simpa using working
    split
    next nowhere =>
      have needsNone : frame.needs? mapPaths = none := by
        simp only [Bool.not_eq_true', hasLocation, Bool.or_eq_false_iff, Option.isSome_eq_false_iff,
          Option.isNone_iff_eq_none] at nowhere
        simp [needs?, asksForLine, nowhere.1]
      exact .pure ⟨(attemptExchanges_of_needs?_eq_none needsNone).symm,
        holds.keep (by simp [needsNone]) rfl⟩
    next =>
      cases found : findMapPath frame.file mapPaths with
      | none =>
        have needsNone : frame.needs? mapPaths = none := by simp [needs?, found]
        exact .pure ⟨(attemptExchanges_of_needs?_eq_none needsNone).symm,
          holds.keep (by simp [needsNone]) (by simp)⟩
      | some path =>
        rw [attemptExchanges_of_findMapPath working found, ← holds path]
        refine .bind (lookUp_adds answers decodes path) ?_
        rintro ⟨line, after⟩ _ ⟨rfl, contains⟩
        have holds := holds.load found contains
        cases line with
        | error fault => exact .pure ⟨List.append_nil _, holds⟩
        | ok line => exact .pure ⟨List.append_nil _, holds⟩

/-- Converting frames has the exchanges of the loads for them, up to the frame that cannot be
written. -/
theorem convertAll_adds (answers : files.AnswersAs fixedFiles)
    (decodes : decoder.DecodesAs fixedDecoder) (frames : List Frame)
    (reflects : progress.Reflects fixedFiles fixedDecoder mapPaths earlier)
    (holds : progress.HoldsLoaded fixedFiles fixedDecoder mapPaths earlier) :
    Adds (convertAll files.recorded decoder.recorded mapPaths progress frames) fun _ added =>
      ∃ reached,
        added = attemptExchanges fixedFiles fixedDecoder mapPaths earlier (frames.take reached) := by
  induction frames generalizing earlier progress with
  | nil => exact .pure ⟨0, rfl⟩
  | cons frame frames inductionHypothesis =>
    refine .bind (.of_always (convert_always answers.recorded decodes.recorded reflects)
      (convert_adds answers decodes reflects holds)) ?_
    rintro ⟨line, after⟩ _ ⟨⟨-, reflects⟩, rfl, holds⟩
    cases line with
    | error fault => exact .pure ⟨1, List.append_nil _⟩
    | ok line =>
      refine .bind (inductionHypothesis reflects holds) ?_
      rintro lines _ ⟨reached, rfl⟩
      have all : attemptExchanges fixedFiles fixedDecoder mapPaths earlier [frame] ++
          attemptExchanges fixedFiles fixedDecoder mapPaths (earlier ++ [frame])
            (frames.take reached) =
          attemptExchanges fixedFiles fixedDecoder mapPaths earlier
            ((frame :: frames).take (reached + 1)) := by
        rw [List.take_succ_cons, attemptExchanges_cons (List.take reached frames)]
      cases lines with
      | error fault => exact .pure ⟨reached + 1, by rw [List.append_nil, all]⟩
      | ok lines => exact .pure ⟨reached + 1, by rw [List.append_nil, all]⟩

end Runs

end Frame

end Retrace
