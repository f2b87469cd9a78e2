/-!
# Levels of the log

A level is given by a name without regard to case. An unknown name means the level of warnings, and
so does a missing one; debugging shows everything that is not left out entirely.
-/

namespace Retrace.CommandLine

/-- The capital letter of a character, where level names are concerned. -/
def capital (char : Char) : Char :=
  match char with
  | '\u0131' => 'I'
  | '\u017f' => 'S'
  | _ => char.toUpper

/-- The level of warnings. -/
def warningLevel : Nat := 30

/-- The names of the levels. -/
def levels : List (String × Nat) :=
  [("NOTSET", 0), ("DEBUG", 10), ("INFO", 20), ("WARNING", warningLevel), ("WARN", warningLevel),
   ("ERROR", 40), ("CRITICAL", 50), ("FATAL", 50)]

/-- The level of a name. -/
def levelOf (name : String) : Nat :=
  let name := String.ofList (name.toList.map capital)
  ((levels.find? fun level => level.1 = name).map Prod.snd).getD warningLevel

/-- The level of the log, from the switch for debugging and the name that the environment gives. -/
def logLevel (debug : Bool) (environment : Option String) : Nat :=
  if debug then levelOf "DEBUG" else levelOf (environment.getD "WARNING")

/-- The form of an entry of the log. -/
def logFormat : String := "%(levelname)s %(name)s: %(message)s"

end Retrace.CommandLine
