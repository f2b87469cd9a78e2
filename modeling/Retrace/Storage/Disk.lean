import Retrace.Storage.Basic
import Retrace.Storage.Text

/-!
# Files on the disk

Answers come from the machine's own files. What cannot be reached is not there.
-/

namespace Retrace.Storage.Disk

/-- The fault of a refused access. -/
def faultOf (refusal : IO.Error) : Fault :=
  match refusal with
  | .noFileOrDirectory _ _ _ => .access .notFound refusal.toString
  | .permissionDenied _ _ _ => .access .denied refusal.toString
  | .inappropriateType _ _ _ => .access .isDirectory refusal.toString
  | _ => .access .failed refusal.toString

/-- Gives a refused access as a fault. -/
def guarded {α : Type} (access : IO (Except Fault α)) : IO (Except Fault α) := do
  try access catch refusal => return .error (faultOf refusal)

/-- There is something at the path. -/
def holds (path : String) : IO (Except Fault Bool) := do
  try return .ok (← (← IO.FS.realPath path).pathExists) catch _ => return .ok false

/-- There is a directory at the path. -/
def isDirectory (path : String) : IO (Except Fault Bool) := do
  try return .ok (← (← IO.FS.realPath path).isDir) catch _ => return .ok false

/-- The text of the file at the path. -/
def readText (path : String) : IO (Except Fault String) :=
  guarded do return textOfBytes (← IO.FS.readBinFile path)

/-- The names of the entries of the directory at the path. -/
def listDirectory (path : String) : IO (Except Fault (List String)) :=
  guarded do
    let entries ← (← IO.FS.realPath path).readDir
    return .ok (entries.toList.map (·.fileName))

/-- The machine's own files. -/
def fileSystem : FileSystem IO where
  holds := holds
  isDirectory := isDirectory
  readText := readText
  listDirectory := listDirectory

end Retrace.Storage.Disk
