import Retrace.Conversion.Config
import Retrace.Conversion.Discovery
import Retrace.Conversion.Frames
import Retrace.Frame.Reader

/-!
# Converting stacks

A stack is converted frame by frame. If its first line is an error's header, that line stays in
front. The source maps that are loaded for one stack are not kept for the next one.
-/

namespace Retrace

/-- What becomes of a stack. -/
inductive Conversion where
  | converted (stack : String)
  /-- The text has no frames. -/
  | noFrames
  deriving DecidableEq, Repr

/-- Reads the frames of a stack. -/
abbrev StackReader := String → Except Fault (List Frame)

/-- Reads the frames of a stack by the grammars of the common engines. -/
def StackReader.grammars : StackReader :=
  fun stack => (Frame.ofStack stack).mapError .numeral

/-- What begins an error's header. -/
def headerMark : String := "Error:"

/-- The first line of a stack, if it is an error's header. -/
def header? (stack : String) : Option String :=
  match Text.lines stack.toList with
  | [] => none
  | line :: _ =>
    if headerMark.toList.isPrefixOf line then some (String.ofList line) else none

/-- Lines with line feeds between them. -/
def joinLines (lines : List String) : String :=
  "\n".intercalate lines

/-- Converts a stack. The empty stack is converted to itself. -/
def convertStackBy {m : Type → Type} [Monad m] {ρ : Type} (telling : Telling)
    (files : FileSystem m) (decoder : Decoder m ρ) (reader : StackReader) (config : Config)
    (stack : String) : m (Except Fault Conversion) := do
  if stack.isEmpty then return .ok (.converted "")
  else
    match reader stack with
    | .error fault => return .error fault
    | .ok [] => return .ok .noFrames
    | .ok frames =>
      match ← Frame.convertAllBy telling files decoder config.mapPaths Progress.start frames with
      | .error fault => return .error fault
      | .ok lines => return .ok (.converted (joinLines ((header? stack).toList ++ lines)))

/-- Converts a stack where every fault is told by its wording. -/
def convertStack {m : Type → Type} [Monad m] {ρ : Type} (files : FileSystem m)
    (decoder : Decoder m ρ) (reader : StackReader) (config : Config) (stack : String) :
    m (Except Fault Conversion) :=
  convertStackBy .plain files decoder reader config stack

/-- Makes a configuration of the source maps in a directory. -/
def configOfDirectory {m : Type → Type} [Monad m] (reporter : Reporter) (files : FileSystem m)
    (directory : String) : m (Except Fault Config) := do
  match ← discoverMaps files directory with
  | .error fault => return .error fault
  | .ok paths => return Config.ofPaths reporter paths

/-- Converts a stack by the source maps of given paths. -/
def convertByPaths {m : Type → Type} [Monad m] (reporter : Reporter) (files : FileSystem m)
    (paths : List String) (stack : String) : m (Except Fault Conversion) := do
  match Config.ofPaths reporter paths with
  | .error fault => return .error fault
  | .ok config => convertStack files Decoder.sourceMap StackReader.grammars config stack

/-- Converts a stack by the source maps in a directory. -/
def convertByDirectory {m : Type → Type} [Monad m] (reporter : Reporter) (files : FileSystem m)
    (directory : String) (stack : String) : m (Except Fault Conversion) := do
  match ← configOfDirectory reporter files directory with
  | .error fault => return .error fault
  | .ok config => convertStack files Decoder.sourceMap StackReader.grammars config stack

end Retrace
