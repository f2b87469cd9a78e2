import Retrace.Text.Search

/-!
# The last name of a path

A stack may come from a machine that separates names by slashes or from one that also uses
backslashes, drives and network shares, so a path has a last name under either convention.
-/

namespace Retrace.Path

/-- The last name of a path whose names are separated by slashes. -/
def posixName (path : List Char) : List Char :=
  Text.afterLast (· = '/') path

/-- The character separates names where both slashes and backslashes do. -/
def isWindowsSeparator (char : Char) : Bool :=
  char = '/' || char = '\\'

/-- What begins a network share that is given as a device, in capitals. -/
def deviceShareMark : List Char := "\\\\?\\UNC\\".toList

/-- The path begins as a network share that is given as a device. -/
def isDeviceShare (path : List Char) : Bool :=
  let head := path.take deviceShareMark.length
  (head.map fun char => if char = '/' then '\\' else char.toUpper) = deviceShareMark

/-- Drops a name and what separates it from the next one; nothing remains without a separator. -/
def afterName? (path : List Char) : Option (List Char) :=
  match path.dropWhile (!isWindowsSeparator ·) with
  | [] => none
  | separator :: rest => some (separator :: rest)

/-- What follows the host and the share at the front of a path. Without a separator behind the
host, or behind the share, the whole path is the share. -/
def afterShare (path : List Char) : List Char :=
  match afterName? path with
  | none => []
  | some [] => []
  | some (_ :: share) => (afterName? share).getD []

/-- What follows the drive, or the network share, at the front of a path. -/
def afterDrive (path : List Char) : List Char :=
  match path with
  | first :: second :: rest =>
    if isWindowsSeparator first && isWindowsSeparator second then
      if isDeviceShare path then afterShare (path.drop deviceShareMark.length)
      else afterShare rest
    else if second = ':' then rest
    else path
  | _ => path

/-- The last name of a path with slashes, backslashes, drives and network shares. -/
def windowsName (path : List Char) : List Char :=
  Text.afterLast isWindowsSeparator (afterDrive path)

end Retrace.Path
