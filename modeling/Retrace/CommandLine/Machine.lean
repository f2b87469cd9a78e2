import Retrace.Storage.Tree

/-!
# The machine under the program

The program sees a machine through its files, which it may ask in one way more than source maps are
asked for, its clipboard, and its standard output, which need not be able to show every text. The
words for a configuration with violations come from the machine as well. A tree of files in memory
with a fixed clipboard is such a machine.
-/

namespace Retrace.CommandLine

/-- What the program needs from the machine that it runs on. -/
structure Machine (m : Type → Type) where
  files : FileSystem m
  /-- There is something at the path; unlike for source maps, refusals are faults. -/
  probe : String → m (Except Fault Bool)
  /-- The text in the clipboard. -/
  clipboard : m (Except Fault String)
  /-- Standard output has a code for every character of the text. -/
  encodes : String → Bool
  /-- How violations of a configuration are reported. -/
  reporter : Reporter

namespace Machine

/-- The clipboard cannot be read because nothing that can read it is installed. -/
def clipboardMissing : Fault :=
  .usage ("Missing optional dependency 'pyperclip' (reading the stack from the clipboard).\n\n" ++
    "Install with uv:\n  uv pip install -e \".[cli]\"\n\n" ++
    "Or with pip:\n  pip install \"stack-converter[cli]\"\n")

/-- Standard output has a code for every character that is no half of a pair. -/
def encodesWhole (text : String) : Bool :=
  !text.toList.any Json.Reader.isHalf

/-- Violations are reported by their wordings, each on a line of its own. -/
def wordings : Reporter := fun violations =>
  "\n".intercalate (violations.map (·.detail.message))

/-- A machine with a tree of files and a fixed clipboard. -/
def ofTree (clipboard : Except Fault String) (encodes : String → Bool) (reporter : Reporter) :
    Machine (ReaderM Storage.Tree) where
  files := Storage.Tree.fileSystem
  probe path := do return (← read).probe path
  clipboard := return clipboard
  encodes := encodes
  reporter := reporter

end Machine

end Retrace.CommandLine
