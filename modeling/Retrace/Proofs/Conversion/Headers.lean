import Retrace.Proofs.Conversion.Reading
import Retrace.Proofs.Frame.Headers

/-!
# Headers of converted stacks

The header of a stack stays in front of the converted frames. It is also offered to the grammars, so
a header whose message reads as a frame is reported twice: as it stands, and as the first frame.
-/

namespace Retrace

open Grammar (ReadsAsFrame)

variable {σ ρ : Type}

theorem header?_of_lines {stack : String} {header : List Char} {rest : List (List Char)}
    (isStack : Text.lines stack.toList = header :: rest) (marked : headerMark.toList <+: header) :
    header? stack = some (String.ofList header) :=
  header?_eq_some_iff.2 ⟨header, rest, isStack, marked, rfl⟩

/-- The frames of a stack whose first line is skipped are those of the other lines. -/
theorem Frame.ofLines_of_skipped {line : List Char} {lines : List (List Char)}
    (skipped : ofLine line = .ok none) : ofLines (line :: lines) = ofLines lines := by
  rw [ofLines, skipped]
  rfl

/-- Behind a header that does not read as a frame come the frames of the other lines, one line for
each, and without any the stack has no frames. A header that does read as a frame is never skipped:
it gives a line of its own too, or the fault. -/
theorem convertStack_of_header (files : FileSystem (StateM σ)) (decoder : Decoder (StateM σ) ρ)
    (config : Config) {stack : String} {header : List Char} {rest : List (List Char)}
    (isStack : Text.lines stack.toList = header :: rest) (marked : headerMark.toList <+: header)
    (state : σ) :
    (¬ ReadsAsFrame header → Answers (some (String.ofList header)) (Frame.ofLines rest)
      ((convertStack files decoder .grammars config stack).run state).1) ∧
    (ReadsAsFrame header → Frame.ofLine header ≠ .ok none ∧
      Answers (some (String.ofList header)) (Frame.ofLines (header :: rest))
        ((convertStack files decoder .grammars config stack).run state).1) := by
  have written : stack ≠ "" := by
    rintro rfl
    cases isStack
  have inLine : '\n' ∉ header :=
    Text.not_mem_of_mem_lines (isStack ▸ List.mem_cons_self)
  have answers := convertStack_answers files decoder config written state
  rw [header?_of_lines isStack marked, Frame.ofStack, isStack] at answers
  have skips := Frame.ofLine_header_eq_none_iff marked inLine
  constructor
  · intro noFrame
    rwa [Frame.ofLines_of_skipped (skips.2 noFrame)] at answers
  · intro reads
    exact ⟨fun skipped => skips.1 skipped reads, answers⟩

/-- The configuration of a single source map. -/
def singleMap : Config :=
  ⟨["a.js.map"], by decide, by decide⟩

/-- A header with a plain message is kept once, in front of the line of the frame behind it. -/
theorem convertStack_of_plainHeader :
    (¬ ReadsAsFrame "Error: lost".toList →
      Answers (some (String.ofList "Error: lost".toList))
        (Frame.ofLines ["    at f (a.js:1:2)".toList])
        ((convertStack unsteadyFiles unsteadyDecoder .grammars singleMap
          "Error: lost\n    at f (a.js:1:2)").run 1).1) ∧
    (ReadsAsFrame "Error: lost".toList → Frame.ofLine "Error: lost".toList ≠ .ok none ∧
      Answers (some (String.ofList "Error: lost".toList))
        (Frame.ofLines ["Error: lost".toList, "    at f (a.js:1:2)".toList])
        ((convertStack unsteadyFiles unsteadyDecoder .grammars singleMap
          "Error: lost\n    at f (a.js:1:2)").run 1).1) :=
  convertStack_of_header unsteadyFiles unsteadyDecoder singleMap (by decide) (by decide) 1

/-- A header that ends in an address is converted as a frame, although no other line holds one. -/
theorem convertStack_of_headerWithAddress :
    Text.lines "Error: connect 127.0.0.1:80".toList = ["Error: connect 127.0.0.1:80".toList] ∧
    headerMark.toList <+: "Error: connect 127.0.0.1:80".toList ∧
    ((convertStack unsteadyFiles unsteadyDecoder .grammars singleMap
      "Error: connect 127.0.0.1:80").run 1).1 =
        .ok (.converted ("Error: connect 127.0.0.1:80\n" ++
          "    at <unknown> (Error: connect 127.0.0.1:80:)" ++
          "  ***Error loading source map for frame (source map not found)")) ∧
    ¬ Answers (some "Error: connect 127.0.0.1:80") (Frame.ofLines [])
      ((convertStack unsteadyFiles unsteadyDecoder .grammars singleMap
        "Error: connect 127.0.0.1:80").run 1).1 := by
  have answer : ((convertStack unsteadyFiles unsteadyDecoder .grammars singleMap
      "Error: connect 127.0.0.1:80").run 1).1 =
        .ok (.converted ("Error: connect 127.0.0.1:80\n" ++
          "    at <unknown> (Error: connect 127.0.0.1:80:)" ++
          "  ***Error loading source map for frame (source map not found)")) := by
    decide +kernel
  refine ⟨by decide, by decide, answer, ?_⟩
  intro answers
  have noFrames := answers.eq_noFrames
  rw [answer] at noFrames
  cases noFrames

end Retrace
