import Retrace.Fault
import Retrace.Text.Lines

/-!
# The text of a file

A file is text if its bytes are UTF-8. Every carriage return, alone or in front of a line feed, is
read as a line feed.
-/

namespace Retrace.Storage

/-- The text of some bytes. -/
def textOfBytes (bytes : ByteArray) : Except Fault String :=
  match String.fromUTF8? bytes with
  | some text => .ok (String.ofList (Text.unifyLineEnds text.toList))
  | none => .error (.undecodable "")

end Retrace.Storage
