import Retrace.Text.Lines

/-!
# The normal form of a path

A path is shown without empty names and single dots; a name of two dots stays. Exactly two slashes
at the front mean something else than one and stay, more of them are one. The empty path is the
current directory.
-/

namespace Retrace.Path

/-- The slashes at the front of the normal form of a path. -/
def root : List Char → List Char
  | '/' :: '/' :: '/' :: _ => ['/']
  | '/' :: '/' :: _ => ['/', '/']
  | '/' :: _ => ['/']
  | _ => []

/-- The names of a path in their order, without empty ones and single dots. -/
def names (path : List Char) : List (List Char) :=
  (Text.pieces '/' path).filter fun name => !name.isEmpty && name ≠ ['.']

/-- The normal form of a path. -/
def normal (path : List Char) : List Char :=
  let body := root path ++ List.intercalate ['/'] (names path)
  if body.isEmpty then ['.'] else body

/-- A path below a directory; a path that begins with a slash stands by itself. -/
def join (directory path : List Char) : List Char :=
  if path.head? = some '/' then path
  else if directory.isEmpty || directory.getLast? = some '/' then directory ++ path
  else directory ++ '/' :: path

end Retrace.Path
