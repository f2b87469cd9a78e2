import Mathlib.Data.List.Forall2
import Retrace.Conversion.Stack
import Retrace.Proofs.Conversion.Origins
import Retrace.Proofs.Frame.Lines
import Retrace.Proofs.Text.Lines

/-!
# Faults stay with their frame

The files and the decoder are arbitrary here: every call may answer anything, or fail, and may
answer differently the next time. Whatever they do, every frame of a stack gives one line, in the
order of the frames, as long as the faults can be told. Only the frames' own numbers have to be short
enough to be written, because a comment stands behind a frame's own place.

A fault that cannot be told is the one thing that does not stay with its frame: there is no comment
then, and the whole stack is lost. `Untold` says when a run comes to one. It is always a fault from
outside.
-/

namespace Retrace

open SourceMap (Position)

namespace Frame

section Lines

variable {σ ρ : Type} {telling : Telling} {files : FileSystem (StateM σ)}
  {decoder : Decoder (StateM σ) ρ} {frame : Frame}

/-- A frame that is written at a place of the sources gives a line, or the place cannot be written. -/
theorem relocated_cases (writable : frame.Writable) (asks : frame.asksForLine = true)
    (place : Option Position) :
    (∃ line, frame.relocated place = .ok line ∧ frame.Gives line) ∨
      ∃ fault, frame.relocated place = .error fault ∧ fault.isOwn = true := by
  have missing : ∃ line, frame.unconverted "original position not found" = .ok line ∧
      frame.Gives line :=
    ⟨_, unconverted_of_writable writable _, .unconverted asks _⟩
  unfold relocated
  cases place with
  | none => exact .inl missing
  | some position =>
    dsimp only
    split
    · exact .inl missing
    next known =>
      simp only [Bool.or_eq_true, decide_eq_true_eq, not_or] at known
      cases written : lineText (frame.methodAt position) position.source.display position.line
          position.column none with
      | ok line => exact .inl ⟨line, rfl, .placed asks known.1 known.2 written⟩
      | error cause => exact .inr ⟨.numeral cause, rfl, rfl⟩

/-- What comes of a frame is a line of the frame, or else a fault of some origin about the line that
the frame asks for. -/
def GivesOrFails (telling : Telling) (files : FileSystem (StateM σ)) (decoder : Decoder (StateM σ) ρ)
    (frame : Frame) : Except Fault String → Prop
  | .ok line => frame.Gives line
  | .error fault => frame.asksForLine = true ∧ HasOrigin telling files decoder fault

variable (telling files decoder)

/-- Looking a frame up gives a line of the frame, or a fault of some origin. -/
theorem lookUpBy_givesOrFails (writable : frame.Writable) (somewhere : frame.hasLocation = true)
    (path : String) (progress : Progress ρ) :
    Always (frame.lookUpBy telling files decoder path progress)
      fun answer => frame.GivesOrFails telling files decoder answer.1 := by
  unfold lookUpBy
  cases isLine : frame.line with
  | none => exact .pure (.bareLine somewhere (not_asksForLine_of_none isLine))
  | some number =>
    dsimp only
    split
    next tooSmall => exact .pure (.bareLine somewhere (not_asksForLine_of_lt isLine tooSmall))
    next large =>
      have asks := asksForLine_of_not_lt isLine large
      refine .bind (MapCache.fetch_hasOrigin telling files decoder _ path) ?_
      rintro ⟨fault | map, cache⟩ origin
      · cases fault with
        | load cause =>
          refine .pure ?_
          cases told : telling.words (.load cause) with
          | error failure => exact ⟨asks, .inr (.told (origin.outside told) told)⟩
          | ok detail =>
            show frame.GivesOrFails telling files decoder (frame.withoutMap detail)
            rw [withoutMap_of_writable writable]
            exact .withoutMap detail
        | _ => exact .pure ⟨asks, origin⟩
      · refine .bind (locate_outside telling files decoder map number frame.column) ?_
        rintro (fault | place) outside
        · exact .pure ⟨asks, .inr outside⟩
        · refine .pure ?_
          rcases relocated_cases writable asks place with
            ⟨line, written, gives⟩ | ⟨fault, failed, isOwn⟩
          · rw [written]
            exact gives
          · rw [failed]
            exact ⟨asks, .inl isOwn⟩

end Lines

section Untold

variable {σ ρ : Type} (telling : Telling) (files : FileSystem (StateM σ))
  (decoder : Decoder (StateM σ) ρ) (mapPaths : List String)

/-- In some state, looking a frame up ends in a fault that cannot be told: to tell it ends in
`cause`. -/
structure LeavesUntold (progress : Progress ρ) (state : σ) (frame : Frame) (cause : Fault) :
    Prop where
  working : progress.failed.contains frame.file = false
  somewhere : frame.hasLocation = true
  untold : ∃ path fault, findMapPath frame.file mapPaths = some path ∧
    ((frame.lookUpBy telling files decoder path progress).run state).1.1 = .error fault ∧
    telling.words fault = .error cause

/-- Converting frames from some state on comes to one that leaves a fault untold. -/
inductive Untold : Progress ρ → σ → List Frame → Fault → Prop
  | here {progress : Progress ρ} {state : σ} {frame : Frame} {cause : Fault}
      (leaves : LeavesUntold telling files decoder mapPaths progress state frame cause)
      (frames : List Frame) : Untold progress state (frame :: frames) cause
  | behind {progress after : Progress ρ} {state next : σ} {frame : Frame} {frames : List Frame}
      {line : String} {cause : Fault}
      (converts : (frame.convertBy telling files decoder mapPaths progress).run state =
        ((.ok line, after), next))
      (untold : Untold after next frames cause) : Untold progress state (frame :: frames) cause

end Untold

section Runs

variable {σ ρ : Type} {telling : Telling} {files : FileSystem (StateM σ)}
  {decoder : Decoder (StateM σ) ρ} {mapPaths : List String} {progress : Progress ρ} {state : σ}
  {frame : Frame} {frames : List Frame} {cause : Fault}

/-- A frame that is looked up gets the line that this gives, or tells the fault. -/
theorem convertBy_of_found (working : progress.failed.contains frame.file = false)
    (somewhere : frame.hasLocation = true) {path : String}
    (found : findMapPath frame.file mapPaths = some path) :
    ((frame.convertBy telling files decoder mapPaths progress).run state).1.1 =
      match ((frame.lookUpBy telling files decoder path progress).run state).1.1 with
      | .ok line => .ok line
      | .error fault => telling.words fault >>= frame.unconverted := by
  unfold convertBy
  rw [working, somewhere, found]
  simp only [Bool.false_eq_true, if_false, Bool.not_true]
  rw [run_bind]
  rcases (frame.lookUpBy telling files decoder path progress).run state with ⟨⟨fault | line, _⟩, _⟩
  · rfl
  · rfl

/-- A frame that leaves a fault untold has no line. -/
theorem LeavesUntold.convertBy
    (leaves : LeavesUntold telling files decoder mapPaths progress state frame cause) :
    ((frame.convertBy telling files decoder mapPaths progress).run state).1.1 = .error cause := by
  obtain ⟨path, fault, found, fails, untold⟩ := leaves.untold
  rw [convertBy_of_found leaves.working leaves.somewhere found, fails]
  dsimp only
  rw [untold]
  rfl

/-- Converting a frame gives one of its lines, unless it leaves a fault from outside untold. -/
theorem convertBy_cases (telling : Telling) (files : FileSystem (StateM σ))
    (decoder : Decoder (StateM σ) ρ) (mapPaths : List String) (writable : frame.Writable)
    (progress : Progress ρ) (state : σ) :
    (∃ line, ((frame.convertBy telling files decoder mapPaths progress).run state).1.1 = .ok line ∧
      frame.Gives line) ∨
    ∃ cause, LeavesUntold telling files decoder mapPaths progress state frame cause ∧
      ComesOfTelling telling files decoder cause := by
  cases working : progress.failed.contains frame.file with
  | true =>
    unfold Frame.convertBy
    rw [working]
    exact .inl ⟨_, withoutMap_of_writable writable _, .withoutMap _⟩
  | false =>
    cases somewhere : frame.hasLocation with
    | false =>
      unfold Frame.convertBy
      rw [working, somewhere]
      refine .inl ⟨frame.methodLine, ?_, .methodLine somewhere⟩
      show (lineText frame.method frame.file none none none).mapError .numeral = _
      rw [lineText_nowhere]
      rfl
    | true =>
      cases found : findMapPath frame.file mapPaths with
      | none =>
        unfold Frame.convertBy
        rw [working, somewhere, found]
        exact .inl ⟨_, withoutMap_of_writable writable _, .withoutMap _⟩
      | some path =>
        have looked : frame.GivesOrFails telling files decoder
            ((frame.lookUpBy telling files decoder path progress).run state).1.1 :=
          lookUpBy_givesOrFails telling files decoder writable somewhere path progress state
        rw [convertBy_of_found working somewhere found]
        cases ends : ((frame.lookUpBy telling files decoder path progress).run state).1.1 with
        | ok line =>
          rw [ends] at looked
          exact .inl ⟨line, rfl, looked⟩
        | error fault =>
          rw [ends] at looked
          obtain ⟨asks, origin⟩ := looked
          cases told : telling.words fault with
          | ok detail =>
            refine .inl ⟨_, ?_, .unconverted asks detail⟩
            dsimp only
            rw [told]
            exact unconverted_of_writable writable detail
          | error cause =>
            exact .inr ⟨cause, ⟨working, somewhere, path, fault, found, ends, told⟩,
              fault, origin.outside told, told⟩

/-- Behind a frame that gives a line, the frames behind it decide. -/
theorem untold_cons_iff {after : Progress ρ} {next : σ} {line : String}
    (converts : (frame.convertBy telling files decoder mapPaths progress).run state =
      ((.ok line, after), next)) :
    Untold telling files decoder mapPaths progress state (frame :: frames) cause ↔
      Untold telling files decoder mapPaths after next frames cause := by
  constructor
  · rintro (⟨leaves⟩ | ⟨convertsToo, untold⟩)
    · have fails := leaves.convertBy
      rw [converts] at fails
      cases fails
    · rw [converts] at convertsToo
      cases convertsToo
      exact untold
  · exact .behind converts

/-- At a frame that leaves a fault untold, this one decides. -/
theorem untold_cons_iff_of_leavesUntold
    (leaves : LeavesUntold telling files decoder mapPaths progress state frame cause)
    {other : Fault} :
    Untold telling files decoder mapPaths progress state (frame :: frames) other ↔
      other = cause := by
  constructor
  · rintro (⟨leavesToo⟩ | ⟨converts, -⟩)
    · exact Except.error.inj (leavesToo.convertBy.symm.trans leaves.convertBy)
    · have fails := leaves.convertBy
      rw [converts] at fails
      cases fails
  · rintro rfl
    exact .here leaves frames

/-- Frames of which none leaves a fault untold give one line each in their order, and the first one
that leaves one untold decides otherwise. -/
theorem convertAllBy_cases (telling : Telling) (files : FileSystem (StateM σ))
    (decoder : Decoder (StateM σ) ρ) (mapPaths : List String)
    (writable : ∀ frame ∈ frames, frame.Writable) (progress : Progress ρ) (state : σ) :
    (∃ lines, ((convertAllBy telling files decoder mapPaths progress frames).run state).1 =
        .ok lines ∧ List.Forall₂ Gives frames lines ∧
        ∀ cause, ¬ Untold telling files decoder mapPaths progress state frames cause) ∨
    ∃ cause, ((convertAllBy telling files decoder mapPaths progress frames).run state).1 =
        .error cause ∧ ComesOfTelling telling files decoder cause ∧
        ∀ other, Untold telling files decoder mapPaths progress state frames other ↔
          other = cause := by
  induction frames generalizing progress state with
  | nil => exact .inl ⟨[], rfl, .nil, nofun⟩
  | cons frame frames inductionHypothesis =>
    obtain ⟨first, others⟩ := List.forall_mem_cons.1 writable
    unfold convertAllBy
    rw [run_bind]
    rcases answered : (frame.convertBy telling files decoder mapPaths progress).run state with
      ⟨⟨outcome, after⟩, next⟩
    rcases convertBy_cases telling files decoder mapPaths first progress state with
      ⟨line, converts, gives⟩ | ⟨cause, leaves, outside⟩
    · rw [answered] at converts
      obtain rfl : outcome = .ok line := converts
      dsimp only
      rw [run_bind]
      rcases rest : (convertAllBy telling files decoder mapPaths after frames).run next with
        ⟨outcome, last⟩
      have decided := inductionHypothesis others after next
      simp only [← untold_cons_iff answered, rest] at decided
      rcases decided with ⟨lines, rfl, givesRest, told⟩ | ⟨cause, rfl, outside, untold⟩
      · exact .inl ⟨line :: lines, rfl, .cons gives givesRest, told⟩
      · exact .inr ⟨cause, rfl, outside, untold⟩
    · have fails := leaves.convertBy
      rw [answered] at fails
      obtain rfl : outcome = .error cause := fails
      exact .inr ⟨cause, rfl, outside, fun other => untold_cons_iff_of_leavesUntold leaves⟩

/-- Where every fault from outside can be told, frames give one line each in their order. -/
theorem convertAllBy_gives
    (tells : ∀ fault, Outside telling files decoder fault → ∃ words, telling.words fault = .ok words)
    (mapPaths : List String) (writable : ∀ frame ∈ frames, frame.Writable)
    (progress : Progress ρ) :
    Always (convertAllBy telling files decoder mapPaths progress frames)
      fun answer => ∃ lines, answer = .ok lines ∧ List.Forall₂ Gives frames lines := by
  intro state
  rcases convertAllBy_cases telling files decoder mapPaths writable progress state with
    ⟨lines, answer, gives, -⟩ | ⟨cause, -, ⟨fault, outside, untold⟩, -⟩
  · exact ⟨lines, answer, gives⟩
  · obtain ⟨words, told⟩ := tells fault outside
    rw [told] at untold
    cases untold

/-- Where every fault is told by its wording, frames give one line each in their order. -/
theorem convertAll_gives (files : FileSystem (StateM σ)) (decoder : Decoder (StateM σ) ρ)
    (mapPaths : List String) (writable : ∀ frame ∈ frames, frame.Writable)
    (progress : Progress ρ) :
    Always (convertAll files decoder mapPaths progress frames)
      fun answer => ∃ lines, answer = .ok lines ∧ List.Forall₂ Gives frames lines :=
  convertAllBy_gives (fun fault _ => ⟨fault.message, rfl⟩) mapPaths writable progress

/-- The lines of frames begin as every written frame does. -/
theorem opens_of_gives {frames : List Frame} {lines : List String}
    (gives : List.Forall₂ Gives frames lines) : ∀ line ∈ lines, Opens line := by
  induction gives with
  | nil => simp
  | cons first _ inductionHypothesis =>
    exact List.forall_mem_cons.2 ⟨first.opens, inductionHypothesis⟩

end Runs

end Frame

/-- A stack has a header exactly if its first line begins like one, and the header is that line. -/
theorem header?_eq_some_iff {stack header : String} :
    header? stack = some header ↔ ∃ first rest, Text.lines stack.toList = first :: rest ∧
      headerMark.toList <+: first ∧ String.ofList first = header := by
  unfold header?
  cases Text.lines stack.toList with
  | nil => simp
  | cons first rest => simp [and_assoc]

/-- The first line of a stack is its header if it is marked as one. -/
theorem toList_header? {stack : String} {first : List Char} {rest : List (List Char)}
    (isStack : Text.lines stack.toList = first :: rest) :
    (header? stack).toList =
      if headerMark.toList <+: first then [String.ofList first] else [] := by
  unfold header?
  rw [isStack]
  by_cases marked : headerMark.toList <+: first <;> simp [marked]

section Stack

variable {σ ρ : Type} {telling : Telling} {files : FileSystem (StateM σ)}
  {decoder : Decoder (StateM σ) ρ} {reader : StackReader} {config : Config} {stack : String}
  {frames : List Frame}

/-- What comes of a stack with frames is what comes of the frames, behind the header. -/
theorem convertStackBy_of_frames (written : stack ≠ "") (reads : reader stack = .ok frames)
    (some : frames ≠ []) (state : σ) :
    ((convertStackBy telling files decoder reader config stack).run state).1 =
      ((Frame.convertAllBy telling files decoder config.mapPaths .start frames).run state).1.map
        fun lines => .converted (joinLines ((header? stack).toList ++ lines)) := by
  have nonempty : ¬ stack.isEmpty = true := fun isEmpty => written (String.isEmpty_iff.1 isEmpty)
  obtain ⟨frame, others, rfl⟩ := List.exists_cons_of_ne_nil some
  unfold convertStackBy
  rw [if_neg nonempty, reads]
  dsimp only
  rw [run_bind]
  rcases (Frame.convertAllBy telling files decoder config.mapPaths .start (frame :: others)).run
    state with ⟨fault | lines, next⟩
  · rfl
  · rfl

/-- A stack with frames is converted to its header and the lines that its frames are converted to. -/
theorem convertStack_of_convertAll {good : List String → Prop} (written : stack ≠ "")
    (reads : reader stack = .ok frames) (some : frames ≠ [])
    (converts : Always (Frame.convertAll files decoder config.mapPaths .start frames)
      fun answer => ∃ lines, answer = .ok lines ∧ good lines) :
    Always (convertStack files decoder reader config stack) fun answer =>
      ∃ lines, answer = .ok (.converted (joinLines ((header? stack).toList ++ lines))) ∧
        good lines := by
  intro state
  obtain ⟨lines, answer, areGood⟩ := converts state
  refine ⟨lines, ?_, areGood⟩
  rw [Frame.convertAll] at answer
  rw [convertStack, convertStackBy_of_frames written reads some, answer]
  rfl

end Stack

/-- Files that change their mind with every question. -/
def unsteadyFiles : FileSystem (StateM Nat) where
  holds _ := fun asked => (.ok (asked % 2 == 1), asked + 1)
  isDirectory _ := fun asked => (.error (.runtime "lost"), asked + 1)
  readText path := fun asked =>
    (if asked % 3 == 0 then .error (.runtime path) else .ok path, asked + 1)
  listDirectory _ := fun asked => (.error (.runtime "lost"), asked + 1)

/-- A decoder whose source maps know a place with too long a line, or fail. -/
def unsteadyDecoder : Decoder (StateM Nat) Unit where
  decode _ := fun asked => (if asked % 5 == 0 then .error .shape else .ok (), asked + 1)
  locate _ _ column := fun asked =>
    (if column.isNone then .error .overflow
      else .ok (some ⟨.null, some (Nat.pow 10 5000), none, some "f"⟩), asked + 1)

end Retrace
