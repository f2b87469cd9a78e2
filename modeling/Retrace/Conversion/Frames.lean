import Retrace.Conversion.MapCache
import Retrace.Conversion.Matching
import Retrace.Frame.Format
import Retrace.Json.Display

/-!
# Converting frames

Every frame gives one line. A frame whose source map cannot be used keeps its own place and gets a
comment, and so does every later frame of the same file without another attempt. A frame whose
position alone cannot be converted keeps its place and gets a comment too, but does not stand in the
way of later frames. A comment tells the fault; where that fails, the frame has no line and the stack
is not converted.
-/

namespace Retrace

open SourceMap (Position)

/-- What the frames of one stack share: the loaded source maps and the files whose source map cannot
be used. -/
structure Progress (ρ : Type) where
  cache : MapCache ρ
  failed : List String

namespace Progress

/-- Before the first frame. -/
def start {ρ : Type} : Progress ρ := ⟨MapCache.empty, []⟩

/-- Remembers that the source map of a file cannot be used. -/
def fail {ρ : Type} (progress : Progress ρ) (file : String) : Progress ρ :=
  if progress.failed.contains file then progress
  else { progress with failed := file :: progress.failed }

end Progress

namespace Frame

/-- The line of a frame with its own place and a comment. -/
def commented (frame : Frame) (comment : String) : Except Fault String :=
  (lineText frame.method frame.file frame.line frame.column (some comment)).mapError .numeral

/-- The line of a frame whose source map cannot be used. -/
def withoutMap (frame : Frame) (detail : String) : Except Fault String :=
  frame.commented (mapFailureComment detail)

/-- The line of a frame whose position cannot be converted. -/
def unconverted (frame : Frame) (detail : String) : Except Fault String :=
  frame.commented (positionFailureComment detail)

/-- The method at a place of the sources: the name there, or else the frame's own one. -/
def methodAt (frame : Frame) (position : Position) : Option String :=
  match position.name with
  | some name => if name.isEmpty then frame.method else some name
  | none => frame.method

/-- The line of a frame at its place in the sources. A place without a line is none. -/
def relocated (frame : Frame) (place : Option Position) : Except Fault String :=
  match place with
  | none => frame.unconverted "original position not found"
  | some position =>
    if position.line = none || position.line = some 0 then
      frame.unconverted "original position not found"
    else
      (lineText (frame.methodAt position) position.source.display position.line position.column
        none).mapError .numeral

/-- Looks a frame up in the source map of a path. A fault that this gives is about the frame's
position, unless it was already turned into a line. -/
def lookUpBy {m : Type → Type} [Monad m] {ρ : Type} (telling : Telling) (files : FileSystem m)
    (decoder : Decoder m ρ) (frame : Frame) (path : String) (progress : Progress ρ) :
    m (Except Fault String × Progress ρ) := do
  match frame.line with
  | none => return (.ok (bareLineText frame.method), progress)
  | some line =>
    if line < 1 then return (.ok (bareLineText frame.method), progress)
    else
      let (loaded, cache) ← progress.cache.fetch files decoder path
      let progress := { progress with cache := cache }
      match loaded with
      | .error (.load cause) =>
        return (telling.words (.load cause) >>= frame.withoutMap, progress.fail frame.file)
      | .error fault => return (.error fault, progress)
      | .ok map =>
        match ← decoder.locate map line frame.column with
        | .error fault => return (.error fault, progress)
        | .ok place => return (frame.relocated place, progress)

/-- Converts a frame. There is no line for it only if a number of the frame itself has too many
digits, or if a fault cannot be told. -/
def convertBy {m : Type → Type} [Monad m] {ρ : Type} (telling : Telling) (files : FileSystem m)
    (decoder : Decoder m ρ) (mapPaths : List String) (progress : Progress ρ) (frame : Frame) :
    m (Except Fault String × Progress ρ) := do
  if progress.failed.contains frame.file then
    return (frame.withoutMap "previous error", progress)
  else if !frame.hasLocation then
    return ((lineText frame.method frame.file none none none).mapError .numeral, progress)
  else
    match findMapPath frame.file mapPaths with
    | none => return (frame.withoutMap "source map not found", progress.fail frame.file)
    | some path =>
      let (line, progress) ← frame.lookUpBy telling files decoder path progress
      match line with
      | .ok line => return (.ok line, progress)
      | .error fault => return (telling.words fault >>= frame.unconverted, progress)

/-- Converts frames in turn, up to the first fault. -/
def convertAllBy {m : Type → Type} [Monad m] {ρ : Type} (telling : Telling) (files : FileSystem m)
    (decoder : Decoder m ρ) (mapPaths : List String) (progress : Progress ρ) :
    List Frame → m (Except Fault (List String))
  | [] => return .ok []
  | frame :: frames => do
    let (line, progress) ← frame.convertBy telling files decoder mapPaths progress
    match line with
    | .error fault => return .error fault
    | .ok line =>
      match ← convertAllBy telling files decoder mapPaths progress frames with
      | .error fault => return .error fault
      | .ok lines => return .ok (line :: lines)

section Plain

variable {m : Type → Type} [Monad m] {ρ : Type} (files : FileSystem m) (decoder : Decoder m ρ)

/-- Looks a frame up where every fault is told by its wording. -/
def lookUp (frame : Frame) (path : String) (progress : Progress ρ) :
    m (Except Fault String × Progress ρ) :=
  frame.lookUpBy .plain files decoder path progress

/-- Converts a frame where every fault is told by its wording. -/
def convert (mapPaths : List String) (progress : Progress ρ) (frame : Frame) :
    m (Except Fault String × Progress ρ) :=
  frame.convertBy .plain files decoder mapPaths progress

/-- Converts frames where every fault is told by its wording. -/
def convertAll (mapPaths : List String) (progress : Progress ρ) (frames : List Frame) :
    m (Except Fault (List String)) :=
  convertAllBy .plain files decoder mapPaths progress frames

end Plain

end Frame

end Retrace
