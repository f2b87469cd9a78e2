import Retrace.Path.BaseName

/-!
# Matching files to source maps

A source map belongs to a file if its path contains the file's last name followed by `.map`. A stack
may come from another machine, so the last name is taken under both conventions for paths. The first
path that belongs to the file is chosen.
-/

namespace Retrace

/-- How the name of a source map ends. -/
def mapEnding : String := ".map"

/-- The path contains a file name with the ending of source maps. -/
def namesMapOf (name : List Char) (mapPath : String) : Bool :=
  Text.occurs (name ++ mapEnding.toList) mapPath.toList

/-- The path of a source map belongs to a file. -/
def belongsTo (file : String) (mapPath : String) : Bool :=
  namesMapOf (Path.posixName file.toList) mapPath ||
    namesMapOf (Path.windowsName file.toList) mapPath

/-- The first path that belongs to a file. -/
def findMapPath (file : String) (mapPaths : List String) : Option String :=
  mapPaths.find? (belongsTo file)

end Retrace
