import Retrace.CommandLine.Arguments
import Retrace.CommandLine.Machine
import Retrace.Conversion.Stack
import Retrace.Text.Plain

/-!
# The program

The program converts the stack in a file, or the one in the clipboard, by one source map or by those
in a directory. It prints the converted stack, or else one line about what is wrong; it never prints
both. What it prints is plain, since it does not write to a terminal. A converted stack that standard
output has no codes for is not printed at all, and no line says so.
-/

namespace Retrace.CommandLine

/-- What the program answers. -/
inductive Answer where
  | help
  | refused
  | converted (stack : String)
  /-- The stack was converted and cannot be printed. -/
  | unprintable
  /-- Something is wrong; with debugging on, the way there is shown too. -/
  | failed (fault : Fault) (traced : Bool)
  deriving DecidableEq, Repr

namespace Answer

/-- The exit code for a fault: two if the program was started wrongly. -/
def faultExitCode : Fault → Nat
  | .usage _ => 2
  | _ => 1

/-- The exit code of the program. -/
def exitCode : Answer → Nat
  | .help => 0
  | .refused => 2
  | .converted _ => 0
  | .unprintable => 1
  | .failed fault _ => faultExitCode fault

/-- A text as it is printed: without control sequences. -/
def printed (text : String) : String :=
  String.ofList (Text.plain text.toList)

/-- A converted stack as it is printed, with a line feed behind it. -/
def printedStack (stack : String) : String :=
  printed (stack ++ "\n")

/-- What the program prints as its result. -/
def output : Answer → String
  | .converted stack => printedStack stack
  | _ => ""

/-- What the program prints about a fault. -/
def errorText : Answer → Option String
  | .failed fault _ => some (printed ("\u2717 " ++ fault.title ++ ": " ++ fault.message))
  | _ => none

end Answer

/-- The paths that ask for help. -/
def helpPaths : List String := ["/h", "/help"]

/-- The normal form of a path. -/
def normalPath (path : String) : String :=
  String.ofList (Path.normal path.toList)

/-- The request asks for help by one of its paths. -/
def asksForHelp (request : Request) : Bool :=
  helpPaths.contains request.mapPath ||
    request.stackFile.any fun path => helpPaths.contains (normalPath path)

/-- Reads a stack file. -/
def readStackFile {m : Type → Type} [Monad m] (machine : Machine m) (path : String) :
    m (Except Fault String) := do
  match ← machine.probe path with
  | .error fault => return .error fault
  | .ok false => return .error (.input (.stackAbsent path))
  | .ok true =>
    match ← machine.files.readText path with
    | .ok stack => return .ok stack
    | .error (.access _ _) => return .error (.input (.stackUnreadable path))
    | .error (.undecodable _) => return .error (.input (.stackUnreadable path))
    | .error fault => return .error fault

/-- Reads the stack that a request means. -/
def readStack {m : Type → Type} [Monad m] (machine : Machine m) (request : Request) :
    m (Except Fault String) :=
  match request.stackFile with
  | none => machine.clipboard
  | some path => readStackFile machine (normalPath path)

/-- Converts a stack by a source map, or by those in a directory. -/
def convertAt {m : Type → Type} [Monad m] (machine : Machine m) (mapPath stack : String) :
    m (Except Fault Conversion) := do
  match ← machine.files.isDirectory mapPath with
  | .error fault => return .error fault
  | .ok true => convertByDirectory machine.reporter machine.files mapPath stack
  | .ok false => convertByPaths machine.reporter machine.files [mapPath] stack

/-- Serves a request. -/
def serve {m : Type → Type} [Monad m] (machine : Machine m) (request : Request) :
    m (Except Fault String) := do
  let mapPath := normalPath request.mapPath
  match ← machine.files.holds mapPath with
  | .error fault => return .error fault
  | .ok false => return .error (.input (.mapAbsent mapPath))
  | .ok true =>
    match ← readStack machine request with
    | .error fault => return .error fault
    | .ok stack =>
      if stack.isEmpty then return .error (.input .empty)
      else
        match ← convertAt machine mapPath stack with
        | .error fault => return .error fault
        | .ok .noFrames => return .error .noFrames
        | .ok (.converted converted) => return .ok converted

/-- The answer to what became of a request. -/
def answerTo (encodes : String → Bool) (debug : Bool) : Except Fault String → Answer
  | .ok stack => if encodes (Answer.printedStack stack) then .converted stack else .unprintable
  | .error fault => .failed fault debug

/-- Runs the program on its arguments. -/
def run {m : Type → Type} [Monad m] (machine : Machine m) (arguments : List String) :
    m Answer := do
  match interpret arguments with
  | .help => return .help
  | .refused => return .refused
  | .run request =>
    if asksForHelp request then return .help
    else return answerTo machine.encodes request.debug (← serve machine request)

end Retrace.CommandLine
