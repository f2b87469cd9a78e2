import Retrace.CommandLine.Program
import Retrace.Storage.Disk

/-!
# Running the program

The program reads its own machine's files, prints what it answers and exits with the answer's code.
-/

namespace Retrace.CommandLine

/-- What the program says about itself. -/
def helpText : String :=
  "Demangle JavaScript stack frames using source maps.\n\n" ++
  "SOURCE_MAP_PATH is a directory of source maps or a single .map file " ++
  "(defaults to the current directory). STACK_FILE is a text file " ++
  "containing an Error stack (defaults to the clipboard contents)."

/-- What the program says about arguments that make no sense. -/
def usageText : String :=
  "Usage: retrace [--debug] [-h | --help] [SOURCE_MAP_PATH] [STACK_FILE]"

/-- The machine that the program runs on. It has no clipboard that the program can read. -/
def ownMachine : Machine IO where
  files := Storage.Disk.fileSystem
  probe := Storage.Disk.holds
  clipboard := return .error (.input (.clipboard "no clipboard is available"))
  encodes := Machine.encodesWhole
  reporter := Machine.wordings

/-- Prints an answer and gives the exit code. -/
def report (answer : Answer) : IO UInt32 := do
  match answer with
  | .help => IO.println helpText
  | .refused => IO.eprintln usageText
  | .converted _ => IO.print answer.output
  | .unprintable => pure ()
  | .failed _ _ => IO.eprintln (answer.errorText.getD "")
  return answer.exitCode.toUInt32

end Retrace.CommandLine

def main (arguments : List String) : IO UInt32 := do
  Retrace.CommandLine.report
    (← Retrace.CommandLine.run Retrace.CommandLine.ownMachine arguments)
