import Retrace.Conversion.Matching
import Retrace.Path.Normal
import Retrace.Storage.Basic

/-!
# Finding the source maps of a directory

The source maps of a directory are its entries whose names end like those of source maps, in the
order of the listing. Entries of its subdirectories are not looked at.
-/

namespace Retrace

/-- The name is that of a source map. -/
def isMapName (name : String) : Bool :=
  mapEnding.toList.isSuffixOf name.toList

/-- The paths of the source maps among the entries of a directory. -/
def mapsAmong (directory : String) (names : List String) : List String :=
  (names.filter isMapName).map fun name =>
    String.ofList (Path.join directory.toList name.toList)

/-- The paths of the source maps in a directory. A directory that is not there or whose listing is
refused is a fault of its own. -/
def discoverMaps {m : Type → Type} [Monad m] (files : FileSystem m) (directory : String) :
    m (Except Fault (List String)) := do
  match ← files.holds directory with
  | .error fault => return .error fault
  | .ok false => return .error (.directory directory)
  | .ok true =>
    match ← files.listDirectory directory with
    | .ok names => return .ok (mapsAmong directory names)
    | .error (.access _ _) => return .error (.directory directory)
    | .error fault => return .error fault

end Retrace
