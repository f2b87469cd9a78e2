import Retrace.Text.Blank
import Retrace.Text.Caseless
import Retrace.Text.Digit

/-!
# Patterns over text

A pattern describes how a text may be consumed from its front. A text can often be consumed in
several ways, and the order of the alternatives says which one is preferred: the left side of a
choice before the right one, more characters before fewer in a greedy repetition, and fewer before
more in a lazy one. A match is the most preferred way in which the whole pattern succeeds, and
it remembers which parts of the text were captured.
-/

namespace Retrace

/-- The parts of a stack line that a pattern can capture. -/
inductive Part where
  | method
  | arguments
  | file
  | line
  | column
  deriving DecidableEq, Repr

/-- A contiguous part of a text, from `start` to before `stop`. -/
structure Span where
  start : Nat
  stop : Nat
  deriving DecidableEq, Repr

/-- The characters of a span. -/
def Span.of (span : Span) (text : List Char) : List Char :=
  (text.take span.stop).drop span.start

/-- The captured parts. -/
abbrev Captures := Part → Option Span

namespace Captures

/-- Nothing is captured. -/
def none : Captures := fun _ => Option.none

/-- Captures a part anew. -/
def set (captures : Captures) (part : Part) (span : Span) : Captures :=
  fun other => if other = part then some span else captures other

/-- The characters of a captured part. -/
def text? (captures : Captures) (part : Part) (text : List Char) : Option (List Char) :=
  (captures part).map (Span.of · text)

end Captures

/-- A state of matching: how much of the text is consumed, what is left of it, and what has been
captured. -/
structure Cursor where
  offset : Nat
  rest : List Char
  captures : Captures

namespace Cursor

/-- In front of a text. -/
def front (text : List Char) : Cursor := ⟨0, text, Captures.none⟩

/-- Behind the first character, which has the given characters behind it. -/
def step (cursor : Cursor) (rest : List Char) : Cursor :=
  { cursor with offset := cursor.offset + 1, rest := rest }

/-- Captures a part that begins at `start` and ends here. -/
def capture (cursor : Cursor) (part : Part) (start : Nat) : Cursor :=
  { cursor with captures := cursor.captures.set part ⟨start, cursor.offset⟩ }

end Cursor

/-- A pattern. -/
inductive Pattern where
  /-- Consumes nothing. -/
  | empty
  /-- Consumes a character of a kind. -/
  | one (accepts : Char → Bool)
  /-- Consumes nothing, in front of the text only. -/
  | atStart
  /-- Consumes nothing, at the end of the text or in front of a line feed that ends it. -/
  | atEnd
  /-- Consumes by one pattern and then by another. -/
  | seq (first second : Pattern)
  /-- Consumes by one of two patterns. -/
  | either (first second : Pattern)
  /-- Consumes characters of a kind, as many as possible. -/
  | greedy (accepts : Char → Bool)
  /-- Consumes characters of a kind, as few as possible. -/
  | sparing (accepts : Char → Bool)
  /-- Consumes by the same pattern again and again, as often as possible. -/
  | many (body : Pattern)
  /-- Consumes by a pattern and captures what it consumed. -/
  | capture (part : Part) (body : Pattern)

namespace Pattern

/-- What is left to match after a pattern, and what the whole match then gives. -/
abbrev Continuation (α : Type) := Cursor → Option α

/-- Consumes characters of a kind and continues behind as many of them as possible. -/
def runGreedy {α : Type} (accepts : Char → Bool) (captures : Captures) (next : Continuation α) :
    Nat → List Char → Option α
  | offset, [] => next ⟨offset, [], captures⟩
  | offset, char :: rest =>
    if accepts char then
      match runGreedy accepts captures next (offset + 1) rest with
      | some result => some result
      | Option.none => next ⟨offset, char :: rest, captures⟩
    else next ⟨offset, char :: rest, captures⟩

/-- Consumes characters of a kind and continues behind as few of them as possible. -/
def runSparing {α : Type} (accepts : Char → Bool) (captures : Captures) (next : Continuation α) :
    Nat → List Char → Option α
  | offset, [] => next ⟨offset, [], captures⟩
  | offset, char :: rest =>
    match next ⟨offset, char :: rest, captures⟩ with
    | some result => some result
    | Option.none =>
      if accepts char then runSparing accepts captures next (offset + 1) rest else Option.none

/-- Repeats a step at most `count` times, as often as possible, and then continues. -/
def runMany {α : Type} (step : Cursor → Continuation α → Option α) (next : Continuation α) :
    Nat → Cursor → Option α
  | 0, cursor => next cursor
  | count + 1, cursor =>
    match step cursor (runMany step next count) with
    | some result => some result
    | Option.none => next cursor

/-- Matches a pattern at a cursor and continues behind it, backtracking as long as the
continuation refuses. A repetition consumes at least one character each time, so that the length of
the text bounds it. -/
def run {α : Type} : Pattern → Cursor → Continuation α → Option α
  | .empty, cursor, next => next cursor
  | .one accepts, cursor, next =>
    match cursor.rest with
    | [] => Option.none
    | char :: rest => if accepts char then next (cursor.step rest) else Option.none
  | .atStart, cursor, next => if cursor.offset = 0 then next cursor else Option.none
  | .atEnd, cursor, next =>
    if cursor.rest.isEmpty || cursor.rest = ['\n'] then next cursor else Option.none
  | .seq first second, cursor, next => first.run cursor fun middle => second.run middle next
  | .either first second, cursor, next =>
    match first.run cursor next with
    | some result => some result
    | Option.none => second.run cursor next
  | .greedy accepts, cursor, next =>
    runGreedy accepts cursor.captures next cursor.offset cursor.rest
  | .sparing accepts, cursor, next =>
    runSparing accepts cursor.captures next cursor.offset cursor.rest
  | .many body, cursor, next =>
    runMany (fun cursor next => body.run cursor next) next cursor.rest.length cursor
  | .capture part body, cursor, next =>
    body.run cursor fun after => next (after.capture part cursor.offset)

/-- The captures of the preferred match that begins in front of the text. -/
def matchFront? (pattern : Pattern) (text : List Char) : Option Captures :=
  pattern.run (Cursor.front text) fun cursor => some cursor.captures

/-- The captures of the preferred match at the first place where there is one, for a text of which
`offset` characters are already passed. -/
def searchFrom? (pattern : Pattern) (offset : Nat) (text : List Char) : Option Captures :=
  match pattern.run ⟨offset, text, Captures.none⟩ fun cursor => some cursor.captures with
  | some captures => some captures
  | Option.none =>
    match text with
    | [] => Option.none
    | _ :: rest => pattern.searchFrom? (offset + 1) rest

/-- The captures of the preferred match at the first place where there is one. -/
def search? (pattern : Pattern) (text : List Char) : Option Captures :=
  pattern.searchFrom? 0 text

/-- Consumes by all patterns in turn. -/
def all : List Pattern → Pattern
  | [] => .empty
  | [last] => last
  | first :: rest => .seq first (all rest)

/-- Consumes by one of the patterns, the first ones preferred. -/
def anyOf (last : Pattern) : List Pattern → Pattern
  | [] => last
  | first :: rest => .either first (anyOf last rest)

/-- Consumes by a pattern if possible. -/
def optional (body : Pattern) : Pattern :=
  .either body .empty

/-- Consumes one given character. -/
def char (wanted : Char) : Pattern :=
  .one (· = wanted)

/-- Consumes a word, which is given in lower case, without regard to case. -/
def word (wanted : String) : Pattern :=
  all (wanted.toList.map fun letter => .one fun char => Text.foldCase char = letter)

/-- Consumes blanks, as many as possible. -/
def blanks : Pattern :=
  .greedy Text.isBlank

/-- Consumes at least one character of a kind, as many as possible. -/
def greedyOne (accepts : Char → Bool) : Pattern :=
  .seq (.one accepts) (.greedy accepts)

/-- Consumes at least one digit, as many as possible. -/
def digits : Pattern :=
  greedyOne Text.isDigit

/-- The character does not end the line. -/
def isInLine (char : Char) : Bool :=
  char ≠ '\n'

/-- Consumes anything in a line, as little as possible. -/
def anything : Pattern :=
  .sparing isInLine

end Pattern

end Retrace
