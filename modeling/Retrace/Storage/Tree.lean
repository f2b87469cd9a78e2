import Retrace.Path.Normal
import Retrace.Storage.Basic
import Retrace.Storage.Text
import Retrace.Text.Quoted

/-!
# A tree of files

Directories have entries by name, and a path is walked name by name from the working directory or
from the root. Every name on the way but the last has to be that of a directory, and `..` leads to
the directory above. Names and paths have a greatest length in bytes, and a path with a null
character leads nowhere.
-/

namespace Retrace.Storage

/-- A file with its bytes, or a directory with its entries in the order of their making. -/
inductive Node where
  | file (bytes : ByteArray)
  | directory (entries : List (String × Node))

/-- A directory that everything lies in, and the names that lead to the working directory. -/
structure Tree where
  root : Node
  working : List String

namespace Node

/-- The entry of a name. -/
def child? (name : String) : Node → Option Node
  | .file _ => none
  | .directory entries => (entries.find? fun entry => entry.1 = name).map Prod.snd

/-- What names without `..` lead to. -/
def find? : Node → List String → Option Node
  | node, [] => some node
  | node, name :: names => (node.child? name).bind (·.find? names)
termination_by _ names => names.length

/-- The entries with another one for a name: in its place, or at the end, or left out. -/
def setEntry (name : String) (node : Option Node) :
    List (String × Node) → List (String × Node)
  | [] => node.toList.map (name, ·)
  | entry :: entries =>
    if entry.1 = name then node.toList.map (name, ·) ++ entries
    else entry :: setEntry name node entries

/-- Puts something where names lead to, or takes away what is there. Directories that are missing on
the way are made; a file on the way stays. -/
def update (node : Option Node) : List String → Node → Node
  | [], parent => node.getD parent
  | [name], .directory entries => .directory (setEntry name node entries)
  | name :: names, .directory entries =>
    let below := ((Node.directory entries).child? name).getD (.directory [])
    .directory (setEntry name (some (update node names below)) entries)
  | _, .file bytes => .file bytes

end Node

/-- The greatest length of a name in bytes. -/
def nameLimit : Nat := 255

/-- The greatest length of a path in bytes. -/
def pathLimit : Nat := 4095

/-- The path is too long. -/
def tooLong (path : List Char) : Fault :=
  .access .failed ("[Errno 36] File name too long: " ++ String.ofList (Text.quoted path))

/-- The path has a null character. -/
def nullFault : Fault :=
  .value "embedded null byte"

/-- Nothing is at the path. -/
def notFound : Fault :=
  .access .notFound ""

/-- Something on the way is no directory. -/
def notDirectory : Fault :=
  .access .notDirectory ""

namespace Tree

/-- A tree with an empty working directory. -/
def empty : Tree where
  root := .directory [("tmp", .directory [("work", .directory [])])]
  working := ["tmp", "work"]

/-- Walks from one place to the place that a name leads to. -/
def step (tree : Tree) (path : List Char) (place : List String) (name : String) :
    Except Fault (List String) :=
  match tree.root.find? place with
  | some (.directory _) =>
    if name = ".." then .ok place.dropLast
    else if nameLimit < name.utf8ByteSize then .error (tooLong path)
    else if (tree.root.find? (place ++ [name])).isSome then .ok (place ++ [name])
    else .error notFound
  | _ => .error notDirectory

/-- The place where a path leads to, and what is there. -/
def resolve (tree : Tree) (path : String) : Except Fault (List String × Node) := do
  let normal := Path.normal path.toList
  if normal.contains '\x00' then throw nullFault
  if pathLimit < (String.ofList normal).utf8ByteSize then throw (tooLong normal)
  let start := if (Path.root normal).isEmpty then tree.working else []
  let names := (Path.names normal).map String.ofList
  let place ← names.foldlM (tree.step normal) start
  match tree.root.find? place with
  | some node => return (place, node)
  | none => throw notFound

/-- There is something at the path. A path that cannot be walked leads nowhere, but one that is too
long is a fault. -/
def probe (tree : Tree) (path : String) : Except Fault Bool :=
  match tree.resolve path with
  | .ok _ => .ok true
  | .error (.access .failed reason) => .error (.access .failed reason)
  | .error _ => .ok false

/-- There is something at the path. -/
def holds (tree : Tree) (path : String) : Bool :=
  (tree.resolve path).isOk

/-- There is a directory at the path. -/
def isDirectory (tree : Tree) (path : String) : Bool :=
  match tree.resolve path with
  | .ok (_, .directory _) => true
  | _ => false

/-- The text of the file at the path. -/
def readText (tree : Tree) (path : String) : Except Fault String :=
  match tree.resolve path with
  | .ok (_, .file bytes) => textOfBytes bytes
  | .ok (_, .directory _) => .error (.access .isDirectory "")
  | .error fault => .error fault

/-- The names of the entries of the directory at the path. -/
def listDirectory (tree : Tree) (path : String) : Except Fault (List String) :=
  match tree.resolve path with
  | .ok (_, .directory entries) => .ok (entries.map Prod.fst)
  | .ok (_, .file _) => .error notDirectory
  | .error fault => .error fault

/-- Puts something at a path, with the directories on the way. -/
def write (tree : Tree) (path : String) (node : Node) : Tree :=
  let normal := Path.normal path.toList
  let start := if (Path.root normal).isEmpty then tree.working else []
  let names := (Path.names normal).map String.ofList
  { tree with root := tree.root.update (some node) (start ++ names) }

/-- Takes away what is at a path. -/
def remove (tree : Tree) (path : String) : Except Fault Tree :=
  match tree.resolve path with
  | .ok (place, .file _) => .ok { tree with root := tree.root.update none place }
  | .ok (_, .directory _) => .error (.access .isDirectory "")
  | .error fault => .error fault

/-- Answers from a tree that does not change. -/
def fileSystem : FileSystem (ReaderM Tree) where
  holds path := do return .ok ((← read).holds path)
  isDirectory path := do return .ok ((← read).isDirectory path)
  readText path := do return (← read).readText path
  listDirectory path := do return (← read).listDirectory path

end Tree

end Retrace.Storage
