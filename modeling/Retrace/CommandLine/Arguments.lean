/-!
# Command-line arguments

The program takes a path of source maps and a stack file, both optional, and two switches: one for
debugging and one for help. Switches may stand anywhere; behind two dashes there are none. An
unknown switch, or a value for a switch, is refused before anything else. Help wins over too many
paths and over a stack file that cannot exist, because its name has a zero character in it.
-/

namespace Retrace.CommandLine

/-- What the program is asked to do. -/
structure Request where
  mapPath : String
  stackFile : Option String
  debug : Bool
  deriving DecidableEq, Repr

/-- What the arguments mean. -/
inductive Invocation where
  | help
  /-- The arguments make no sense. -/
  | refused
  | run (request : Request)
  deriving DecidableEq, Repr

/-- The switches and paths among the arguments. -/
structure Sorted where
  help : Bool
  debug : Bool
  paths : List String
  deriving DecidableEq, Repr

namespace Sorted

/-- No arguments. -/
def empty : Sorted := ⟨false, false, []⟩

/-- A path in front of the other arguments. -/
def withPath (path : String) (sorted : Sorted) : Sorted :=
  { sorted with paths := path :: sorted.paths }

end Sorted

/-- The path of source maps if none is given: the current directory. -/
def defaultMapPath : String := "."

/-- The argument is a run of the one-letter switch for help. -/
def isShortHelp (argument : String) : Bool :=
  match argument.toList with
  | '-' :: letters => !letters.isEmpty && letters.all (· = 'h')
  | _ => false

/-- The argument is a path: a dash alone, or a text without a dash at the front. -/
def isPath (argument : String) : Bool :=
  match argument.toList with
  | '-' :: rest => rest.isEmpty
  | _ => true

/-- Sorts the arguments, unless one of them is no switch and no path. -/
def sort : List String → Option Sorted
  | [] => some .empty
  | argument :: rest =>
    if argument = "--" then some { Sorted.empty with paths := rest }
    else if isPath argument then (sort rest).map (.withPath argument)
    else if argument = "--help" || isShortHelp argument then
      (sort rest).map ({ · with help := true })
    else if argument = "--debug" then (sort rest).map ({ · with debug := true })
    else none

/-- The path can name a file: it has no zero character, which would end the name. -/
def canNameFile (path : String) : Bool :=
  !path.toList.contains '\x00'

/-- What the arguments mean. -/
def interpret (arguments : List String) : Invocation :=
  match sort arguments with
  | none => .refused
  | some sorted =>
    if sorted.help then .help
    else match sorted.paths with
      | [] => .run ⟨defaultMapPath, none, sorted.debug⟩
      | [mapPath] => .run ⟨mapPath, none, sorted.debug⟩
      | [mapPath, stackFile] =>
        if canNameFile stackFile then .run ⟨mapPath, some stackFile, sorted.debug⟩ else .refused
      | _ => .refused

end Retrace.CommandLine
