import Retrace.Fault

/-!
# Access to files

The library asks for files only through four questions. Whoever answers them decides in which monad
the answers come, so that one conversion runs against a disk, a tree of files in memory, or a table
of answers. Every answer may be a fault.
-/

namespace Retrace

/-- The questions about files, by path. -/
structure FileSystem (m : Type → Type) where
  /-- There is a file or directory at the path. -/
  holds : String → m (Except Fault Bool)
  /-- There is a directory at the path. -/
  isDirectory : String → m (Except Fault Bool)
  /-- The text of the file at the path. -/
  readText : String → m (Except Fault String)
  /-- The names of the entries of the directory at the path. -/
  listDirectory : String → m (Except Fault (List String))

end Retrace
