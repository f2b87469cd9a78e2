/-!
# Numbers in source map segments

A segment is a run of integers without separators. Every character stands for six bits: the five
lower ones belong to a number, least significant group first, and the upper one says that more
follow. The lowest bit of the finished number is its sign. Integers may have any size.

A character that is no digit of the alphabet, but lies below the first one behind it, counts as five
ones with more to follow.
-/

namespace Retrace.SourceMap.Vlq

/-- The sixty-four digits in the order of their values. -/
def alphabet : List Char :=
  "ABCDEFGHIJKLMNOPQRSTUVWXYZabcdefghijklmnopqrstuvwxyz0123456789+/".toList

/-- The digit for a value below sixty-four. -/
def digit (value : Nat) : Char :=
  alphabet.getD value 'A'

/-- The value of a digit. -/
def digitValue? (char : Char) : Option Nat :=
  alphabet.idxOf? char

/-- The first code point behind all digits; no character from there on is read. -/
def codeLimit : Nat := 123

/-- A character of a segment: five bits of a number, and whether more follow. -/
structure Group where
  bits : Nat
  more : Bool
  deriving DecidableEq, Repr

/-- The group that a character stands for. -/
def group? (char : Char) : Option Group :=
  if char.toNat < codeLimit then
    match digitValue? char with
    | some value => some ⟨value % 32, 32 ≤ value⟩
    | none => some ⟨31, true⟩
  else none

/-- Why a segment is no run of integers. -/
inductive Fault where
  /-- A character lies beyond the digits. -/
  | beyondDigits
  /-- The last number goes on behind the end. -/
  | unfinished
  deriving DecidableEq, Repr

/-- The integer of an unsigned number whose lowest bit is the sign. -/
def ofUnsigned (number : Nat) : Int :=
  if number % 2 = 1 then -((number / 2 : Nat) : Int) else (number / 2 : Nat)

/-- The unsigned number that keeps the sign of an integer in its lowest bit. -/
def toUnsigned (value : Int) : Nat :=
  if value < 0 then 2 * value.natAbs + 1 else 2 * value.natAbs

/-- Reads the integers of a segment, where `pending` is the number so far and `shift` the weight of
the next group's bits. -/
def decodeFrom (pending shift : Nat) : List Char → Except Fault (List Int)
  | [] => if pending = 0 && shift = 0 then .ok [] else .error .unfinished
  | char :: rest =>
    match group? char with
    | none => .error .beyondDigits
    | some group =>
      let number := pending + group.bits * Nat.pow 2 shift
      if group.more then decodeFrom number (shift + 5) rest
      else (decodeFrom 0 0 rest).map (ofUnsigned number :: ·)

/-- Reads the integers of a segment. -/
def decode (segment : List Char) : Except Fault (List Int) :=
  decodeFrom 0 0 segment

/-- Writes an unsigned number, least significant group first. -/
def encodeUnsigned (number : Nat) : List Char :=
  if number < 32 then [digit number]
  else digit (number % 32 + 32) :: encodeUnsigned (number / 32)
termination_by number

/-- Writes the integers of a segment. -/
def encode (values : List Int) : List Char :=
  values.flatMap fun value => encodeUnsigned (toUnsigned value)

example : decode "AAgBC".toList = .ok [0, 0, 16, 1] := by rfl

example : decode "g".toList = .error .unfinished := by rfl

end Retrace.SourceMap.Vlq
