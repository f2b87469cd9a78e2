import Retrace.Storage.Basic

/-!
# A table of answers

A table answers by the exact path: a listed file with its text, a listed directory with its names,
or either with a fault. It records every question, also one that is answered by a fault.
-/

namespace Retrace.Storage

/-- A question that was asked. -/
inductive Call where
  | holds (path : String)
  | readText (path : String)
  | listDirectory (path : String)
  deriving DecidableEq, Repr

/-- What a table says about a file. -/
inductive Content where
  | text (text : String)
  /-- Reading the file is answered by a fault. -/
  | unreadable (fault : Fault)
  /-- Already the question whether the file is there is answered by a fault. -/
  | inaccessible (fault : Fault)
  deriving DecidableEq, Repr

/-- Files and directories by path, and the questions asked so far, the latest first. -/
structure Table where
  files : List (String × Content)
  directories : List (String × Except Fault (List String))
  asked : List Call

namespace Table

/-- Nothing is listed and nothing was asked. -/
def empty : Table := ⟨[], [], []⟩

/-- What is listed under a path. -/
def lookup? {α : Type} (path : String) (entries : List (String × α)) : Option α :=
  (entries.find? fun entry => entry.1 = path).map Prod.snd

/-- The entries without those of a path. -/
def without {α : Type} (path : String) (entries : List (String × α)) : List (String × α) :=
  entries.filter fun entry => entry.1 ≠ path

/-- Lists a file. -/
def writeFile (table : Table) (path : String) (content : Content) : Table :=
  { table with files := (path, content) :: without path table.files }

/-- Lists a directory. -/
def writeDirectory (table : Table) (path : String) (names : Except Fault (List String)) : Table :=
  { table with directories := (path, names) :: without path table.directories }

/-- Lists nothing under a path. -/
def remove (table : Table) (path : String) : Table :=
  { table with
    files := without path table.files
    directories := without path table.directories }

/-- The answer whether a path is listed. -/
def holds (table : Table) (path : String) : Except Fault Bool :=
  match lookup? path table.files with
  | some (.inaccessible fault) => .error fault
  | some _ => .ok true
  | none => .ok (lookup? path table.directories).isSome

/-- The answer with the text of a file. -/
def readText (table : Table) (path : String) : Except Fault String :=
  match lookup? path table.files with
  | some (.text text) => .ok text
  | some (.unreadable fault) => .error fault
  | some (.inaccessible fault) => .error fault
  | none => .error (.access .isDirectory "")

/-- The answer with the names of a directory. -/
def listDirectory (table : Table) (path : String) : Except Fault (List String) :=
  match lookup? path table.directories with
  | some names => names
  | none => .error (.access .notDirectory "")

/-- Records a question. -/
def record (call : Call) (table : Table) : Table :=
  { table with asked := call :: table.asked }

/-- The questions asked so far, in their order, and the table without them. -/
def takeCalls (table : Table) : List Call × Table :=
  (table.asked.reverse, { table with asked := [] })

/-- Answers from a table and records the questions. -/
def fileSystem : FileSystem (StateM Table) where
  holds path := do
    modify (record (.holds path))
    return (← get).holds path
  isDirectory path := do
    return .ok (lookup? path (← get).directories).isSome
  readText path := do
    modify (record (.readText path))
    return (← get).readText path
  listDirectory path := do
    modify (record (.listDirectory path))
    return (← get).listDirectory path

end Table

end Retrace.Storage
